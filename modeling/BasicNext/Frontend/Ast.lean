import BasicNext.Types.Ty

/-!
# Expressions

The nodes of `bn_frontend::ast` that narrowing looks into; every other kind of expression is one node with
the names that it reads. Spans are left out.
-/

namespace BasicNext.Frontend

inductive Literal where
  | integer (text : String)
  | float (text : String)
  | string (text : String)
  | typeName (name : String)
  | special (text : String)
  | boolean (value : Bool)
  | null
  | notAvailable
  | endOfFile
deriving DecidableEq, Repr

/-- One atom of a type reference: its first token, the texts of the others and its literal dimensions. -/
structure TypeAtom where
  name : String
  parts : List String := []
  dimensions : List String := []
deriving DecidableEq, Repr

inductive Expression where
  | literal (value : Literal)
  | name (name : String)
  /-- The right side of `IS`: the parser makes a reference of one atom. -/
  | typeTest (atom : TypeAtom)
  | unary (operator : String) (operand : Expression)
  | binary (operator : String) (left right : Expression)
  | other (kind : String) (reads : List String)
deriving DecidableEq, Repr

end BasicNext.Frontend

/-!
## Statements

The statements of a function body. Each statement and each condition has a note: `Unit` as parsed, and the
locals that it is checked with once semantic analysis has accepted the body. Declarations carry the types
that their references resolve to. Spans, and the member functions of class bodies, are left out.
-/

namespace BasicNext.Frontend

inductive LoopKind where
  | while_ | repeat_ | for_
deriving DecidableEq, Repr

/-- The kinds of a control statement. -/
inductive Jump where
  | exit | continue_
deriving DecidableEq, Repr

/-- The type of a declaration: one type or an alternative of types that are none themselves. -/
structure DeclaredType where
  ty : Ty
  flat : ∀ alternatives members : List Ty, ty = .alternative alternatives → Ty.alternative members ∉ alternatives

/-- One name of a `LET` or `CONST`. -/
structure Declared where
  name : String
  initializer : Option Expression

inductive ForHeader where
  | counted (variable_ : String) (ty : DeclaredType) (start last : Expression) (step : Option Expression)
  | each (variable_ : String) (ty : DeclaredType) (iterable : Expression)

namespace ForHeader

def name : ForHeader → String
  | counted variable_ .. => variable_
  | each variable_ .. => variable_

def ty : ForHeader → DeclaredType
  | counted _ ty .. => ty
  | each _ ty _ => ty

/-- The variable of a `FOR EACH` is a constant. -/
def constant : ForHeader → Bool
  | counted .. => false
  | each .. => true

end ForHeader

/-- What an assignment writes: a name, or a field or an element of what its root names. -/
inductive Target where
  | name (name : String)
  | part (root : Option String) (expression : Expression)

/-- The head of a loop. `WHILE` and `UNTIL` note their conditions. -/
inductive LoopHead (α : Type) where
  | while_ (condition : Expression) (note : α)
  | repeat_ (condition : Expression) (note : α)
  | for_ (header : ForHeader)

mutual

inductive Statement (α : Type) where
  | binding (note : α) (constant : Bool) (ty : DeclaredType) (names : List Declared)
  | destructuring (note : α) (bindings : List (String × DeclaredType)) (source : Expression)
  | assignment (note : α) (target : Target) (value : Expression)
  | input (note : α) (prompt : Option Expression) (target : Target)
  | print (note : α) (values : List Expression)
  | call (note : α) (expression : Expression)
  | release (note : α) (value : Expression)
  | return_ (note : α) (value : Option Expression)
  | stop (note : α) (code : Expression)
  | control (note : α) (kind : Jump) (target : LoopKind)
  | if_ (note : α) (branches : Branches α)
  | loop (note : α) (head : LoopHead α) (body : Block α)

/-- The statements of a block; the note of its end comes last. -/
inductive Block (α : Type) where
  | nil (note : α)
  | cons (statement : Statement α) (rest : Block α)

/-- The branches of an `IF`, in order: to the end of one without `ELSE`, or to its `ELSE`. -/
inductive Branches (α : Type) where
  | untaken (note : α)
  | otherwise (body : Block α)
  | branch (note : α) (condition : Expression) (body : Block α) (rest : Branches α)

end

variable {α β : Type}

namespace LoopHead

def kind : LoopHead α → LoopKind
  | while_ .. => .while_
  | repeat_ .. => .repeat_
  | for_ _ => .for_

def map (f : α → β) : LoopHead α → LoopHead β
  | while_ condition note => while_ condition (f note)
  | repeat_ condition note => repeat_ condition (f note)
  | for_ header => for_ header

def conditions : LoopHead α → List Expression
  | while_ condition _ | repeat_ condition _ => [condition]
  | for_ _ => []

end LoopHead

/-! ### Notes -/

def Statement.note : Statement α → α
  | binding note .. | destructuring note .. | assignment note .. | input note .. | print note _
  | call note _ | release note _ | return_ note _ | stop note _ | control note .. | if_ note _
  | loop note .. => note

def Block.note : Block α → α
  | nil note => note
  | cons statement _ => statement.note

def Block.last : Block α → α
  | nil note => note
  | cons _ rest => rest.last

/-- The note of the first condition that is left. -/
def Branches.note : Branches α → α
  | untaken note => note
  | otherwise body => body.note
  | branch note .. => note

/-- The note where no branch before the `ELSE` is taken. -/
def Branches.remaining : Branches α → α
  | untaken note => note
  | otherwise body => body.note
  | branch _ _ _ rest => rest.remaining

mutual

def Statement.map (f : α → β) : Statement α → Statement β
  | .binding note constant ty names => .binding (f note) constant ty names
  | .destructuring note bindings source => .destructuring (f note) bindings source
  | .assignment note target value => .assignment (f note) target value
  | .input note prompt target => .input (f note) prompt target
  | .print note values => .print (f note) values
  | .call note expression => .call (f note) expression
  | .release note value => .release (f note) value
  | .return_ note value => .return_ (f note) value
  | .stop note code => .stop (f note) code
  | .control note kind target => .control (f note) kind target
  | .if_ note branches => .if_ (f note) (branches.map f)
  | .loop note head body => .loop (f note) (head.map f) (body.map f)

def Block.map (f : α → β) : Block α → Block β
  | .nil note => .nil (f note)
  | .cons statement rest => .cons (statement.map f) (rest.map f)

def Branches.map (f : α → β) : Branches α → Branches β
  | .untaken note => .untaken (f note)
  | .otherwise body => .otherwise (body.map f)
  | .branch note condition body rest => .branch (f note) condition (body.map f) (rest.map f)

end

/-! ### What a body does to its names -/

def Target.written : Target → List String
  | .name written => [written]
  | .part .. => []

mutual

/-- `collect_written_bindings`: the names that a statement assigns at any depth. -/
def Statement.written : Statement α → List String
  | .assignment _ target _ | .input _ _ target => target.written
  | .if_ _ branches => branches.written
  | .loop _ _ body => body.written
  | _ => []

/-- `written_bindings` -/
def Block.written : Block α → List String
  | .nil _ => []
  | .cons statement rest => statement.written ++ rest.written

def Branches.written : Branches α → List String
  | .untaken _ => []
  | .otherwise body => body.written
  | .branch _ _ body rest => body.written ++ rest.written

end

mutual

/-- Whether a statement makes a block that holds it return or stop. -/
def Statement.guaranteesReturn : Statement α → Bool
  | .return_ .. | .stop .. => true
  | .if_ _ branches => branches.hasOtherwise && branches.guaranteeReturn
  | _ => false

/-- `guarantees_return` -/
def Block.guaranteesReturn : Block α → Bool
  | .nil _ => false
  | .cons statement rest => statement.guaranteesReturn || rest.guaranteesReturn

/-- Whether all branches do, with the `ELSE` where there is one. -/
def Branches.guaranteeReturn : Branches α → Bool
  | .untaken _ => true
  | .otherwise body => body.guaranteesReturn
  | .branch _ _ body rest => body.guaranteesReturn && rest.guaranteeReturn

def Branches.hasOtherwise : Branches α → Bool
  | .untaken _ => false
  | .otherwise _ => true
  | .branch _ _ _ rest => rest.hasOtherwise

end

mutual

/-- The conditions of a statement, at any depth. -/
def Statement.conditions : Statement α → List Expression
  | .if_ _ branches => branches.allConditions
  | .loop _ head body => head.conditions ++ body.conditions
  | _ => []

def Block.conditions : Block α → List Expression
  | .nil _ => []
  | .cons statement rest => statement.conditions ++ rest.conditions

def Branches.allConditions : Branches α → List Expression
  | .untaken _ => []
  | .otherwise body => body.conditions
  | .branch _ condition body rest => condition :: (body.conditions ++ rest.allConditions)

end

def Branches.conditions : Branches α → List Expression
  | .untaken _ | .otherwise _ => []
  | .branch _ condition _ rest => condition :: rest.conditions

end BasicNext.Frontend

import BasicNext.Native.Calls
import BasicNext.Native.Symbols

/-!
# Runtime symbols

What emitted modules declare: the functions of the runtime, the web library and the C library and the LLVM intrinsics
(`bn_llvm::llvm::runtime_abi`, `web_abi`), and `main`, which the C library calls; and the helper functions that they
define themselves (`input_runtime`, `arc_runtime`, `statics`). The witnesses `__bn_copy_` and `__bn_destroy_` of a
`STRUCT` and the constants `.bn_` begin with other letters than any item.
-/

namespace BasicNext.Native

/-- The runtime's functions, without `bn_rt_`. -/
def runtimeFunctions : List String := [
    "arc_address", "arc_finish_destroy", "arc_register", "arc_release", "arc_retain", "clock_now", "clock_timer",
    "console_beep", "console_cls", "console_num_cols", "console_num_rows", "console_print_at", "compress_deflate",
    "compress_inflate", "compress_gzip", "compress_gunzip", "compress_deflate_text", "compress_inflate_text",
    "compress_gzip_text", "compress_gunzip_text", "compress_bytes_from_hex", "compress_bytes_from_text",
    "compress_bytes_length", "compress_bytes_release", "compress_bytes_retain", "compress_bytes_to_hex",
    "compress_bytes_to_text", "zip_create", "zip_open", "zip_add_file", "zip_add_text", "zip_add_stored_text",
    "zip_add_bytes", "zip_add_stored_bytes", "zip_extract_all", "zip_extract_file", "zip_extract_text",
    "zip_extract_bytes", "zip_entry_count", "zip_entry_name", "zip_close", "zip_retain", "zip_release",
    "crypto_argon2id", "crypto_bytes_from_hex", "crypto_bytes_from_text", "crypto_bytes_length",
    "crypto_bytes_release", "crypto_bytes_retain", "crypto_bytes_to_hex", "crypto_dsa_keypair", "crypto_dsa_sign",
    "crypto_dsa_verify", "crypto_generate_key", "crypto_generate_nonce", "crypto_hmac", "crypto_hmac_verify",
    "crypto_import_key", "crypto_kem_decapsulate", "crypto_kem_encapsulate", "crypto_kem_keypair",
    "crypto_key_algorithm", "crypto_key_length", "crypto_key_release", "crypto_key_retain", "crypto_key_zeroize",
    "crypto_open", "crypto_public_key", "crypto_random_bytes", "crypto_seal", "crypto_sha256", "crypto_sha512",
    "crypto_sign", "crypto_slice", "crypto_verify", "dataframe_add_boolean", "dataframe_add_float",
    "dataframe_add_integer_start", "dataframe_add_string", "dataframe_append_columns", "dataframe_append_rows",
    "dataframe_close", "dataframe_column_count", "dataframe_column_name_owned", "dataframe_convert_float",
    "dataframe_count_na", "dataframe_drop_na", "dataframe_fill_na", "dataframe_convert_integer",
    "dataframe_copy_float", "dataframe_copy_integer", "dataframe_create", "dataframe_get_boolean",
    "dataframe_get_float", "dataframe_get_integer", "dataframe_get_string", "dataframe_join", "dataframe_read_csv",
    "dataframe_reduce", "dataframe_retain", "dataframe_row_count", "dataframe_select",
    "dataframe_set_integer_cell", "dataframe_set_label", "dataframe_slice", "dataframe_transpose",
    "dataframe_write_csv", "dataframe_zscore", "dispatch_await", "dispatch_barrier_close",
    "dispatch_barrier_create", "dispatch_barrier_wait", "dispatch_cancel", "dispatch_group_close",
    "dispatch_group_create", "dispatch_group_enter", "dispatch_group_leave", "dispatch_group_wait",
    "dispatch_mutex_close", "dispatch_mutex_create", "dispatch_mutex_lock", "dispatch_mutex_unlock",
    "dispatch_queue_close", "dispatch_queue_create", "dispatch_queue_create_auto", "dispatch_queue_join",
    "dispatch_semaphore_acquire", "dispatch_semaphore_close", "dispatch_semaphore_create",
    "dispatch_semaphore_release", "dispatch_submit", "dispatch_ticket_cancel", "dispatch_ticket_close",
    "dispatch_ticket_error", "dispatch_ticket_id", "dispatch_ticket_is_done", "dispatch_ticket_status", "env_get",
    "env_has", "error_code", "error_field", "error_print", "error_set_report", "error_take", "error_wrap",
    "exec_result_close", "exec_result_return_code", "exec_result_stderr", "exec_result_stdout", "exec_run",
    "file_close", "file_new", "file_open", "file_read_all", "file_read_bytes", "file_read_line", "file_release",
    "file_retain", "file_write", "file_write_bytes", "file_write_line", "fs_copy", "fs_create_directory",
    "fs_delete_file", "fs_exists", "fs_get_current_directory", "fs_is_directory", "fs_move", "fs_open_new",
    "fs_remove_directory", "fs_set_current_directory", "host_num_procs", "json_append_boolean",
    "json_append_float", "json_append_integer", "json_append_json", "json_append_null", "json_append_string",
    "json_array", "json_clone", "json_get_boolean", "json_get_boolean_at", "json_get_float", "json_get_float_at",
    "json_get_integer", "json_get_integer_at", "json_get_json", "json_get_json_at", "json_get_string",
    "json_get_string_at", "json_has", "json_kind", "json_length", "json_object", "json_parse", "json_release",
    "json_retain", "json_set_boolean", "json_set_boolean_at", "json_set_float", "json_set_float_at",
    "json_set_integer", "json_set_integer_at", "json_set_json", "json_set_json_at", "json_set_null",
    "json_set_null_at", "json_set_string", "json_set_string_at", "json_stringify", "log_client_access",
    "log_logger_access", "log_logger_close", "log_logger_delete", "log_logger_flush", "log_logger_new",
    "log_logger_retain", "log_logger_set_access_defaults", "log_logger_set_defaults", "log_logger_set_level",
    "log_logger_write", "math_acos", "math_asin", "math_atan", "math_atan2", "math_ceil", "math_cos",
    "math_degree_to_rad", "math_exp", "math_fabs", "math_floor", "math_fma", "math_fmax", "math_fmin",
    "math_fsign", "math_hypot", "math_gcd", "math_iabs", "math_imax", "math_imin", "math_isign", "math_log",
    "math_log10", "math_log2", "math_mean_f64", "math_mean_i32", "math_median_f64", "math_median_i32",
    "math_mode_f64", "math_mode_i32", "math_pow", "math_rad_to_degree", "math_quartile1_f64", "math_quartile1_i32",
    "math_quartile3_f64", "math_quartile3_i32", "math_range_f64", "math_range_i32", "math_round", "math_sin",
    "math_sqrt", "math_student_t", "math_student_t_pvalue", "math_student_t_quantile", "math_stdev_f64",
    "math_stdev_i32", "math_tan", "math_todate", "math_tohour", "math_totime", "math_totimestamp",
    "temporal_date_parse", "temporal_time_parse", "temporal_timestamp_parse", "temporal_timestamp_format",
    "temporal_timezone_offset", "temporal_timezone_is_dst", "temporal_timestamp_at_zone",
    "temporal_timestamp_from_local", "math_toweekday", "math_trunc", "math_val", "math_variance_f64",
    "math_variance_i32", "math_vmax_f64", "math_vmax_i32", "math_vmin_f64", "math_vmin_i32",
    "math_vector_max_float", "math_vector_max_integer", "math_vector_min_float", "math_vector_min_integer",
    "math_vector_mode", "math_vector_statistic", "math_vector_quantile", "math_vector_covariance",
    "math_vector_correlation", "math_vector_dot", "math_vector_product", "math_vector_sum", "net_address_is_ipv4",
    "net_address_is_ipv6", "net_address_is_link_local", "net_address_is_loopback", "net_address_is_multicast",
    "net_address_is_private", "net_address_parse", "net_addresses_count", "net_addresses_free",
    "net_addresses_get", "net_cidr_contains", "net_cidr_parse", "net_handle_close", "net_neighbor", "net_ping",
    "net_resolve", "net_reverse", "net_tcp_accept", "net_tcp_connect", "net_tcp_listen_with_backlog",
    "net_tcp_listener_local_endpoint", "net_tcp_read", "net_tcp_set_timeouts", "net_tcp_shutdown_read",
    "net_tcp_shutdown_write", "net_tcp_stream_local_endpoint", "net_tcp_stream_remote_endpoint", "net_tcp_write",
    "net_udp_bind", "net_udp_local_endpoint", "net_udp_packet_copy_to", "net_udp_packet_size",
    "net_udp_packet_source", "net_udp_packet_truncated", "net_udp_receive_handle", "net_udp_send_to",
    "policy_check", "policy_filesystem_root", "policy_filesystem_sandboxed", "policy_init", "print_date",
    "print_float", "print_float32", "print_str", "print_time", "random_next", "random_seed", "sqlite_begin",
    "sqlite_changes", "sqlite_close", "sqlite_commit", "sqlite_exec", "sqlite_last_insert_rowid", "sqlite_open",
    "sqlite_open_existing", "sqlite_open_read_only", "sqlite_query", "sqlite_retain", "sqlite_rollback",
    "stack_check", "str_asc", "str_char_utf8", "str_concat", "str_cmp", "str_eq", "str_from_char",
    "str_from_packed", "str_index_utf8", "cstr_copy", "input_line", "str_len", "str_release", "str_retain",
    "str_to_lower", "str_to_upper", "text_float", "text_float32", "text_int", "text_uint", "trap_report",
    "trap_report_failure", "vector_nest", "ffi_new_record", "ffi_release", "ffi_set_int8", "ffi_set_uint8",
    "ffi_set_int16", "ffi_set_uint16", "ffi_set_int32", "ffi_set_uint32", "ffi_set_int64", "ffi_set_uint64",
    "ffi_set_float", "ffi_set_double", "ffi_set_bool", "ffi_set_string", "ffi_set_array", "ffi_get_int8",
    "ffi_get_uint8", "ffi_get_int16", "ffi_get_uint16", "ffi_get_int32", "ffi_get_uint32", "ffi_get_int64",
    "ffi_get_uint64", "ffi_get_float", "ffi_get_double", "ffi_get_bool", "ffi_args_new", "ffi_args_add",
    "ffi_args_count", "ffi_call", "ffi_handle_result_value", "ffi_handle_read_string", "ffi_array_read_from",
    "ffi_array_write_to"]

/-- The web library's functions, without `bn_web_`. -/
def webFunctions : List String := [
    "response_create", "response_set_status", "response_status", "response_set_header", "response_header",
    "response_set_cookie", "response_set_cookie_with_policy", "response_clear_cookie", "response_write",
    "response_commit", "response_is_committed", "response_close", "request_create", "request_method",
    "request_target", "request_header", "request_param", "request_cookie", "request_body", "server_create",
    "server_add_filter", "server_route", "server_static", "server_start", "server_start_tls", "server_dispatch",
    "server_use_sessions", "server_stop", "server_close", "tls_from_pem", "cookie_jar_create", "cookie_jar_set",
    "cookie_jar_set_with_policy", "cookie_jar_get", "cookie_jar_count", "session_store_create",
    "session_store_new", "session_store_get", "scraper_create", "scraper_text", "acl_create", "acl_allow",
    "acl_deny", "acl_check", "egress_policy_new", "client_create", "client_request", "client_request_with_policy",
    "client_close"]

/-- The C library's functions and its stream; which of them a module declares depends on the host. -/
def libraryFunctions : List String := [
    "stdout", "__stdoutp", "__acrt_iob_func", "calloc", "exit", "flockfile", "free", "funlockfile", "_lock_file", "malloc", "memcmp", "printf",
    "putchar", "_setmode", "_unlock_file"]

/-- LLVM's intrinsics, without `llvm.`. -/
def intrinsics : List String := [
    "frameaddress.p0", "memcpy.p0.p0.i64", "memmove.p0.p0.i64", "memset.p0.i64", "pow.f32", "pow.f64",
    "sadd.with.overflow.i8", "sadd.with.overflow.i16", "sadd.with.overflow.i32", "sadd.with.overflow.i64",
    "ssub.with.overflow.i8", "ssub.with.overflow.i16", "ssub.with.overflow.i32", "ssub.with.overflow.i64",
    "smul.with.overflow.i8", "smul.with.overflow.i16", "smul.with.overflow.i32", "smul.with.overflow.i64",
    "smul.with.overflow.i128", "uadd.with.overflow.i8", "uadd.with.overflow.i16", "uadd.with.overflow.i32",
    "uadd.with.overflow.i64", "usub.with.overflow.i8", "usub.with.overflow.i16", "usub.with.overflow.i32",
    "usub.with.overflow.i64", "umul.with.overflow.i8", "umul.with.overflow.i16", "umul.with.overflow.i32",
    "umul.with.overflow.i64"]

/-- The helpers that a module defines for `INPUT`, for the ownership of objects and for the `STATIC` fields. -/
def helperFunctions : List String := [
    "bn_input", "bn_input_str", "bn_arc_retain", "bn_arc_release", "bn_arc_destroy", "bn_arc_weak_id", "bn_arc_weak_read",
    "bn_statics_reset"]

def runtimeSymbols : List String :=
  "main" :: helperFunctions ++ libraryFunctions ++ intrinsics.map ("llvm." ++ ·) ++ runtimeFunctions.map ("bn_rt_" ++ ·) ++
    webFunctions.map ("bn_web_" ++ ·)

end BasicNext.Native

/-!
## Symbol clashes

When two items of a module get one symbol name, or an item the name of a runtime symbol. Functions and trampolines are
escaped, all other items sanitised, and both kinds begin with `bn_`.
-/

namespace BasicNext.Native

open Ir

/-! ### Clashes -/

/-- The kinds of the sanitised names. -/
inductive DataKind where
  | slot | storage | kept | flag | buffer
deriving DecidableEq, Repr

/-- What the names of the kind begin with, after `bn_`. -/
def DataKind.mark : DataKind → List Char
  | slot => ['s', 't', '_']
  | storage => ['s', 'v', '_']
  | kept => ['s', 'v', 'p', '_']
  | flag => ['i', 'n', 'i', 't', '_']
  | buffer => ['v', 'r', 'e', 't', '_']

def joined (className field : String) : List Char := className.toList ++ '_' :: field.toList

/-- The text after what is sanitised to `bn_st_` at its start, as often as it stands there. -/
def unmarked : List Char → List Char
  | a :: b :: c :: d :: e :: f :: rest =>
    if a = 'b' ∧ b = 'n' ∧ c.isAlphanum = false ∧ d = 's' ∧ e = 't' ∧ f.isAlphanum = false then unmarked rest
    else a :: b :: c :: d :: e :: f :: rest
  | text => text

namespace Item

/-- The function is compiled to `main`. -/
@[grind] def isMain : Item → Bool
  | function _ kind name => kind == .entry || name == "Start"
  | _ => false

/-- The name that is escaped, where the item has one. -/
@[grind] def code : Item → Option (List UInt8)
  | function _ kind name => if kind == .entry || name == "Start" then none else some (stringBytes name)
  | trampoline task =>
    if task = "Start" then some (stringBytes "dispatch_trampoline_main")
    else some (stringBytes "dispatch_trampoline_bn_" ++ stringBytes task)
  | _ => none

/-- The text that is sanitised, where the item has one. -/
@[grind] def data : Item → Option (DataKind × List Char)
  | slot className field => some (.slot, joined className field)
  | storage className field => some (.storage, unmarked (joined className field))
  | kept className field => some (.kept, unmarked (joined className field))
  | flag className => some (.flag, className.toList)
  | buffer _ name => some (.buffer, name.toList)
  | _ => none

/-- The names of two items are confused. -/
inductive Clash : Item → Item → Prop
  | mains {item other : Item} : item.isMain = true → other.isMain = true → Clash item other
  | codes {item other : Item} {name otherName : List UInt8} : item.code = some name → other.code = some otherName →
    SameSpelling name otherName → Clash item other
  | data {item other : Item} {kind : DataKind} {text otherText : List Char} : item.data = some (kind, text) →
    other.data = some (kind, otherText) → List.Forall₂ Indistinct text otherText → Clash item other
  | mixed {item other : Item} {name : List UInt8} {kind : DataKind} {text : List Char} : item.code = some name →
    other.data = some (kind, text) → Spells name (kind.mark ++ text) → Clash item other

/-- The item is confused with a runtime symbol. -/
inductive ClashesWith : Item → String → Prop
  | main {item : Item} : item.isMain = true → ClashesWith item "main"
  | code {position : Nat} {kind : FunctionKind} {name symbol : String} {rest : List UInt8} : kind ≠ .entry →
    name ≠ "Start" → symbol.toList = "bn_".toList ++ rest.map Char.ofUInt8 → (∀ byte ∈ rest, plain byte = true) →
    SameSpelling (stringBytes name) rest → ClashesWith (.function position kind name) symbol

end Item

/-! ### Symbols -/

theorem map_sanitize_mark (kind : DataKind) : kind.mark.map sanitize = kind.mark := by cases kind <;> decide

theorem withoutSlotMark_eq (text : List Char) : withoutSlotMark (text.map sanitize) = (unmarked text).map sanitize := by
  fun_induction unmarked text with
  | case1 a b c d e f rest marked ih =>
    obtain ⟨rfl, rfl, first, rfl, rfl, second⟩ := marked
    simp only [List.map_cons, sanitize_other first, sanitize_other second]
    exact ih
  | case2 a b c d e f rest unmarked =>
    rw [withoutSlotMark.eq_def]
    split
    · rename_i equal
      simp only [List.map_cons, List.cons.injEq] at equal
      obtain ⟨first, second, third, fourth, fifth, sixth, -⟩ := equal
      rw [sanitize_eq_alphanum (by decide)] at first second fourth fifth
      rw [sanitize_eq_underscore] at third sixth
      exact absurd ⟨first, second, third, fourth, fifth, sixth⟩ unmarked
    · rfl
  | case3 text short =>
    rw [withoutSlotMark.eq_def]
    split
    · rename_i equal
      obtain ⟨a, text, rfl, -, equal⟩ := List.map_eq_cons_iff.1 equal
      obtain ⟨b, text, rfl, -, equal⟩ := List.map_eq_cons_iff.1 equal
      obtain ⟨c, text, rfl, -, equal⟩ := List.map_eq_cons_iff.1 equal
      obtain ⟨d, text, rfl, -, equal⟩ := List.map_eq_cons_iff.1 equal
      obtain ⟨e, text, rfl, -, equal⟩ := List.map_eq_cons_iff.1 equal
      obtain ⟨f, text, rfl, -, -⟩ := List.map_eq_cons_iff.1 equal
      exact absurd rfl (short a b c d e f text)
    · rfl

theorem toList_slotName (className field : String) :
    (slotName className field).toList = "bn_st_".toList ++ (joined className field).map sanitize := by
  have underscore : sanitize '_' = '_' := sanitize_other underscore_not_alphanum
  simp [slotName, withoutSigil, staticGlobalName, joined, toList_sanitizeSymbol, underscore]

theorem toList_slotSuffix (className field : String) :
    (slotSuffix className field).toList = (unmarked (joined className field)).map sanitize := by
  rw [slotSuffix, toList_slotName, ← withoutSlotMark_eq]
  simp [withoutSlotMark]

theorem toList_flagName (className : String) :
    (flagName className).toList = "bn_init_".toList ++ className.toList.map sanitize := by
  simp [flagName, withoutSigil, classInitFlag, toList_sanitizeSymbol]

/-! The marks of the literals -/

theorem slot_mark : "bn_st_".toList = "bn_".toList ++ DataKind.slot.mark := by
  simp [DataKind.mark]

theorem storage_mark : "bn_sv_".toList = "bn_".toList ++ DataKind.storage.mark := by
  simp [DataKind.mark]

theorem kept_mark : "bn_svp_".toList = "bn_".toList ++ DataKind.kept.mark := by
  simp [DataKind.mark]

theorem flag_mark : "bn_init_".toList = "bn_".toList ++ DataKind.flag.mark := by
  simp [DataKind.mark]

theorem buffer_mark : "bn_vret_".toList = "bn_".toList ++ DataKind.buffer.mark := by
  simp [DataKind.mark]

theorem trampoline_mark : "bn_dispatch_trampoline_".toList = "bn_".toList ++ "dispatch_trampoline_".toList := by
  simp

theorem escape_trampoline :
    escape (stringBytes "dispatch_trampoline_bn_") = "dispatch_trampoline_".toList ++ "bn_".toList := by
  decide

theorem escape_trampoline_main :
    escape (stringBytes "dispatch_trampoline_main") = "dispatch_trampoline_".toList ++ "main".toList := by
  decide

namespace Item

variable {item other : Item}

theorem symbol_of_isMain (main : item.isMain = true) : item.symbol = "main" := by
  cases item with
  | function position kind name =>
    simp only [isMain, Bool.or_eq_true, beq_iff_eq] at main
    simp only [symbol, definedSymbol, llvmFunctionSymbol]
    obtain rfl | rfl := main <;> simp
  | trampoline | slot | storage | kept | flag | buffer => simp [isMain] at main

theorem toList_llvmFunctionSymbol {name : String} (named : name ≠ "Start") :
    (llvmFunctionSymbol name).toList = "bn_".toList ++ escape (stringBytes name) := by
  rw [llvmFunctionSymbol, if_neg named, String.toList_append, escape, @String.toList_ofList (List.flatMap _ _)]

theorem toList_dispatchTrampolineSymbol (name : String) : (dispatchTrampolineSymbol name).toList =
      "bn_".toList ++ ("dispatch_trampoline_".toList ++ (llvmFunctionSymbol name).toList) := by
  unfold dispatchTrampolineSymbol
  rw [String.toList_append, trampoline_mark, List.append_assoc]

theorem symbol_of_code {name : List UInt8} (code : item.code = some name) :
    item.symbol.toList = "bn_".toList ++ escape name := by
  cases item with
  | function position kind text =>
    simp only [Item.code, Option.ite_none_left_eq_some, Bool.or_eq_true, beq_iff_eq, not_or, Option.some.injEq] at code
    obtain ⟨⟨user, named⟩, rfl⟩ := code
    rw [symbol, definedSymbol, if_neg user, toList_llvmFunctionSymbol named]
  | trampoline task =>
    rw [symbol, toList_dispatchTrampolineSymbol]
    by_cases start : task = "Start"
    · simp only [Item.code, start, if_true, Option.some.injEq] at code
      rw [← code, escape_trampoline_main, llvmFunctionSymbol, if_pos start]
    · simp only [Item.code, start, if_false, Option.some.injEq] at code
      rw [← code, escape_append, escape_trampoline, toList_llvmFunctionSymbol start, List.append_assoc]
  | slot | storage | kept | flag | buffer => simp [Item.code] at code

theorem symbol_of_data {kind : DataKind} {text : List Char} (data : item.data = some (kind, text)) :
    item.symbol.toList = "bn_".toList ++ (kind.mark ++ text).map sanitize := by
  rw [List.map_append, map_sanitize_mark, ← List.append_assoc]
  cases item with
  | function | trampoline => simp [Item.data] at data
  | slot className field =>
    simp only [Item.data, Option.some.injEq, Prod.mk.injEq] at data
    rw [symbol, toList_slotName, slot_mark, ← data.1, ← data.2]
  | storage className field =>
    simp only [Item.data, Option.some.injEq, Prod.mk.injEq] at data
    unfold symbol storageName
    rw [String.toList_append, toList_slotSuffix, storage_mark, ← data.1, ← data.2]
  | kept className field =>
    simp only [Item.data, Option.some.injEq, Prod.mk.injEq] at data
    unfold symbol keptName
    rw [String.toList_append, toList_slotSuffix, kept_mark, ← data.1, ← data.2]
  | flag className =>
    simp only [Item.data, Option.some.injEq, Prod.mk.injEq] at data
    rw [symbol, toList_flagName, flag_mark, ← data.1, ← data.2]
  | buffer position name =>
    simp only [Item.data, Option.some.injEq, Prod.mk.injEq] at data
    unfold symbol bufferName
    rw [String.toList_append, toList_sanitizeSymbol, buffer_mark, ← data.1, ← data.2]

theorem cases_name (item : Item) :
    item.isMain = true ∨ (∃ name, item.code = some name) ∨ ∃ kind text, item.data = some (kind, text) := by
  cases item with
  | function position kind name =>
    cases main : (kind == .entry || name == "Start") with
    | true => exact .inl main
    | false => exact .inr (.inl ⟨stringBytes name, by simp [code, main]⟩)
  | trampoline task =>
    refine .inr (.inl ?_)
    rw [code]
    split <;> exact ⟨_, rfl⟩
  | slot | storage | kept | flag | buffer => exact .inr (.inr ⟨_, _, rfl⟩)

end Item

theorem mark_inj {kind other : DataKind} {text otherText : List Char}
    (equal : kind.mark ++ text = other.mark ++ otherText) : kind = other ∧ text = otherText := by
  cases kind <;> cases other <;> simp_all [DataKind.mark]

namespace Item

variable {item other : Item}

theorem main_ne_marked (text : List Char) : "main".toList ≠ "bn_".toList ++ text := by simp

theorem Clash.symbol_eq (clash : item.Clash other) : item.symbol = other.symbol := by
  rw [← String.toList_inj]
  cases clash with
  | mains main otherMain => rw [symbol_of_isMain main, symbol_of_isMain otherMain]
  | codes code otherCode same => rw [symbol_of_code code, symbol_of_code otherCode, same.escape_eq]
  | data data otherData same =>
    rw [symbol_of_data data, symbol_of_data otherData, List.map_append, List.map_append, map_sanitize_eq_iff.2 same]
  | mixed code data spells => rw [symbol_of_code code, symbol_of_data data, escape_eq_map_sanitize_iff.2 spells]

theorem clash_of_symbol_eq (equal : item.symbol = other.symbol) : item.Clash other ∨ other.Clash item := by
  rw [← String.toList_inj] at equal
  obtain main | ⟨name, code⟩ | ⟨kind, text, data⟩ := item.cases_name <;>
    obtain otherMain | ⟨otherName, otherCode⟩ | ⟨otherKind, otherText, otherData⟩ := other.cases_name
  · exact .inl (.mains main otherMain)
  · rw [symbol_of_isMain main, symbol_of_code otherCode] at equal
    exact absurd equal (main_ne_marked _)
  · rw [symbol_of_isMain main, symbol_of_data otherData] at equal
    exact absurd equal (main_ne_marked _)
  · rw [symbol_of_code code, symbol_of_isMain otherMain] at equal
    exact absurd equal.symm (main_ne_marked _)
  · rw [symbol_of_code code, symbol_of_code otherCode, List.append_cancel_left_eq, escape_eq_iff] at equal
    exact .inl (.codes code otherCode equal)
  · rw [symbol_of_code code, symbol_of_data otherData, List.append_cancel_left_eq, escape_eq_map_sanitize_iff] at equal
    exact .inl (.mixed code otherData equal)
  · rw [symbol_of_data data, symbol_of_isMain otherMain] at equal
    exact absurd equal.symm (main_ne_marked _)
  · rw [symbol_of_data data, symbol_of_code otherCode, List.append_cancel_left_eq, eq_comm,
      escape_eq_map_sanitize_iff] at equal
    exact .inr (.mixed otherCode data equal)
  · rw [symbol_of_data data, symbol_of_data otherData, List.append_cancel_left_eq, List.map_append, List.map_append,
      map_sanitize_mark, map_sanitize_mark] at equal
    obtain ⟨rfl, same⟩ := mark_inj equal
    exact .inl (.data data otherData (map_sanitize_eq_iff.1 same))

end Item

/-! ### Runtime symbols -/

theorem runtimeSymbols_first {symbol : String} {first : Char} {rest : List Char} (declared : symbol ∈ runtimeSymbols)
    (marked : symbol.toList = "bn_".toList ++ first :: rest) : symbol ∈ helperFunctions ∨ first = 'r' ∨ first = 'w' := by
  simp only [runtimeSymbols, List.mem_cons, List.mem_append, List.mem_map] at declared
  obtain ((((rfl | helper) | library) | ⟨name, -, rfl⟩) | ⟨name, -, rfl⟩) | ⟨name, -, rfl⟩ := declared
  · exact absurd marked (Item.main_ne_marked _)
  · exact .inl helper
  · have unmarked : ∀ name ∈ libraryFunctions, name.toList.take 3 ≠ "bn_".toList := by decide
    exact absurd (by rw [marked]; simp) (unmarked symbol library)
  · simp at marked
  · simp only [String.toList_append, String.reduceToList, List.cons_append, List.nil_append, List.cons.injEq] at marked
    exact .inr (.inl marked.2.2.2.1.symm)
  · simp only [String.toList_append, String.reduceToList, List.cons_append, List.nil_append, List.cons.injEq] at marked
    exact .inr (.inr marked.2.2.2.1.symm)

theorem mark_first (kind : DataKind) : ∃ first rest, kind.mark = first :: rest ∧ first ≠ 'r' ∧ first ≠ 'w' := by
  cases kind <;> exact ⟨_, _, rfl, by decide, by decide⟩

/-- No helper is named like a trampoline or a field, a flag or a buffer: `input` is no `init_` and `statics` no `st_`. -/
theorem helperFunctions_unmarked {symbol : String} (helper : symbol ∈ helperFunctions) (kind : DataKind) (rest : List Char) :
    symbol.toList ≠ "bn_".toList ++ (kind.mark ++ rest) := by
  have unmarked : ∀ symbol ∈ helperFunctions,
      symbol.toList.take ("bn_".toList ++ kind.mark).length ≠ "bn_".toList ++ kind.mark := by
    cases kind <;> decide
  intro marked
  refine unmarked symbol helper ?_
  rw [marked, ← List.append_assoc, List.take_left]

theorem helperFunctions_no_trampoline : ∀ symbol ∈ helperFunctions, symbol.toList.take 4 ≠ "bn_d".toList := by decide

namespace Item

variable {item : Item} {symbol : String}

theorem ClashesWith.symbol_eq (clash : item.ClashesWith symbol) : item.symbol = symbol := by
  cases clash with
  | main main => exact symbol_of_isMain main
  | code user named marked ascii same =>
    rw [← String.toList_inj, Item.symbol, definedSymbol, if_neg user, toList_llvmFunctionSymbol named, marked,
      same.escape_eq, escape_plain ascii]

theorem clashesWith_of_symbol_eq (declared : symbol ∈ runtimeSymbols) (equal : item.symbol = symbol) :
    item.ClashesWith symbol := by
  cases item with
  | function position kind name =>
    cases main : (function position kind name).isMain with
    | true =>
      rw [symbol_of_isMain main] at equal
      exact equal ▸ .main main
    | false =>
      simp only [isMain, Bool.or_eq_false_iff, beq_eq_false_iff_ne] at main
      obtain ⟨rest, ascii, letters⟩ := exists_escaped (stringBytes name)
      refine .code main.1 main.2 ?_ ascii (escape_eq_iff.1 ?_)
      · rw [← equal, Item.symbol, definedSymbol, if_neg main.1, toList_llvmFunctionSymbol main.2, letters]
      · rw [escape_plain ascii, letters]
  | trampoline task =>
    have marked : symbol.toList = "bn_".toList ++ 'd' :: ("ispatch_trampoline_".toList ++ (llvmFunctionSymbol task).toList) := by
      have split : "dispatch_trampoline_".toList = 'd' :: "ispatch_trampoline_".toList := by simp
      rw [← equal, Item.symbol, toList_dispatchTrampolineSymbol, split, List.cons_append]
    obtain helper | first | first := runtimeSymbols_first declared marked
    · exact absurd (by rw [marked]; simp) (helperFunctions_no_trampoline symbol helper)
    · exact absurd first (by decide)
    · exact absurd first (by decide)
  | slot | storage | kept | flag | buffer =>
    have marked := congrArg String.toList equal
    rw [symbol_of_data rfl, List.map_append, map_sanitize_mark] at marked
    obtain ⟨first, rest, mark, notRuntime, notWeb⟩ := mark_first _
    have first := marked.symm
    rw [mark, List.cons_append] at first
    obtain helper | other := runtimeSymbols_first declared first
    · exact absurd marked.symm (helperFunctions_unmarked helper _ _)
    · exact absurd other (not_or.2 ⟨notRuntime, notWeb⟩)

end Item

/-! ### Distinct symbols -/

section

variable (module : Module) (functions : List Function)

/-- No two items have one symbol, and none but the entry has the symbol of the runtime. -/
structure SymbolsDistinct : Prop where
  distinct : ∀ item ∈ items module functions, ∀ other ∈ items module functions, item ≠ other → item.symbol ≠ other.symbol
  free : ∀ item ∈ items module functions, item.isEntry = false → item.symbol ∉ runtimeSymbols

/-- No two names are confused, and no function is named like a function of the runtime. -/
structure NamesApart : Prop where
  apart : ∀ item ∈ items module functions, ∀ other ∈ items module functions, item ≠ other → ¬item.Clash other
  free : ∀ item ∈ items module functions, item.isEntry = false → ∀ symbol ∈ runtimeSymbols, ¬item.ClashesWith symbol

/-- The symbols of a module are distinct exactly if its names are not confused by what escaping and sanitising do to
them. -/
theorem symbolsDistinct_iff : SymbolsDistinct module functions ↔ NamesApart module functions := by
  constructor
  · rintro ⟨distinct, free⟩
    refine ⟨fun item member other otherMember ne clash => ?_, fun item member user symbol declared clash => ?_⟩
    · exact distinct item member other otherMember ne clash.symbol_eq
    · exact free item member user (clash.symbol_eq ▸ declared)
  · rintro ⟨apart, free⟩
    refine ⟨fun item member other otherMember ne equal => ?_, fun item member user declared => ?_⟩
    · obtain clash | clash := Item.clash_of_symbol_eq equal
      · exact apart item member other otherMember ne clash
      · exact apart other otherMember item member ne.symm clash
    · exact free item member user item.symbol declared (Item.clashesWith_of_symbol_eq declared rfl)

end

/-! ### A method and a function -/

/-- `Start` uses the two functions. -/
def escapedStart : Function where
  name := "Start"
  kind := .entry
  owner := none
  parameters := []
  weakSymbols := ∅
  returnType := .named "VOID"
  entry := 0
  blocks := [{
    id := 0
    instructions := [
      .constant 0 (.function "Log.Add") (.function [.integer .int32] (.named "VOID")) defaultModuleSpan,
      .constant 1 (.function "Log_2eAdd") (.function [.integer .int32] (.named "VOID")) defaultModuleSpan]
    terminator := .return none }]
  span := defaultModuleSpan

/-- The method `Log.Add` is escaped to the name of the function `Log_2eAdd`. -/
def escapedModule : Module where
  functions := [escapedStart, returning "Log.Add" .user (some "Log"), returning "Log_2eAdd" .user none]

theorem escapedModule_accepted : escapedModule.Accepted := ⟨20, by decide +kernel⟩

/-- The module is accepted, and two of its functions have one symbol. -/
theorem escapedModule_clashes :
    escapedModule.Accepted ∧ ¬SymbolsDistinct escapedModule escapedModule.functions := by
  have named (item : Item) (function : item ∈ functionItems escapedModule.functions) :
      item ∈ items escapedModule escapedModule.functions :=
    List.mem_append_left _ (List.mem_append_left _ (List.mem_append_left _ function))
  refine ⟨escapedModule_accepted, fun symbols => ?_⟩
  refine symbols.distinct (.function 1 .user "Log.Add") (named _ ?_) (.function 2 .user "Log_2eAdd") (named _ ?_)
    (by simp) ?_
  · simp [functionItems, escapedModule, returning]
  · simp [functionItems, escapedModule, returning]
  · decide

end BasicNext.Native

import Mathlib
import Tsql.Proofs.Json.Merge
import Tsql.Proofs.Text.Digits
import Tsql.Proofs.Toml.ReadBack
import Tsql.Settings.Reader

/-!
# Layers of settings

A document lies over the defaults and the environment over both. `Settings.Given` says what each setting is
that a document gives, from the document's own entries; `Settings.Overrides` what each setting is under an
environment. `Settings.precedence` is that reading and overriding are these, and that data written in either
format are the same settings.
-/

namespace Tsql

open Text Json

/-! ### Documents -/

/-- Four settings as the entries of an object give them. -/
structure DatabaseSettings.Given (fields : List (String × Json)) (d : DatabaseSettings) : Prop where
  connectionString : (lastField? "connection_string" fields).getD (.string "") = .string d.connectionString
  version : (lastField? "version" fields).getD (.string "Sql13") = .string d.version
  commandTimeoutSecs :
    (lastField? "command_timeout_secs" fields).getD (.ofInt 30) = .ofInt d.commandTimeoutSecs
  traceSql : (lastField? "trace_sql" fields).getD (.bool false) = .bool d.traceSql

def databaseFields (fields : List (String × Json)) : List (String × Json) :=
  match lastField? "database" fields with
  | some (.object entries) => entries
  | _ => []

/-- The entry for the database, if there is one, is an object. -/
def HasDatabaseObject (fields : List (String × Json)) : Prop :=
  ∀ j, lastField? "database" fields = some j → ∃ entries, j = .object entries

/-- Settings as the entries of an object give them, each one its default where its key is absent. -/
structure Settings.Given (fields : List (String × Json)) (s : Settings) : Prop where
  debug : (lastField? "debug" fields).getD (.bool true) = .bool s.debug
  logLevel : (lastField? "log_level" fields).getD (.string "info") = .string s.logLevel
  database : s.database.Given (databaseFields fields)

theorem readBool_eq_ok {j : Json} {b : Bool} : readBool j = .ok b ↔ j = .bool b := by
  cases j <;> simp [readBool, wrongType]

theorem readText_eq_ok {j : Json} {s : String} : readText j = .ok s ↔ j = .string s := by
  cases j <;> simp [readText, wrongType]

theorem readNatural_eq_ok {j : Json} {n : Nat} : readNatural j = .ok n ↔ j = .ofInt n := by
  cases j with
  | number x =>
    cases x with
    | integer i =>
      simp only [readNatural, Json.ofInt, Json.number.injEq, JsonNumber.integer.injEq]
      split
      · simp only [Except.ok.injEq]
        omega
      · simp only [reduceCtorEq, false_iff]
        omega
    | float x => simp [readNatural, wrongType, Json.ofInt]
  | _ => simp [readNatural, wrongType, Json.ofInt]

theorem bind_eq_ok_iff {ε α β : Type} {x : Except ε α} {f : α → Except ε β} {b : β} :
    (x >>= f) = .ok b ↔ ∃ a, x = .ok a ∧ f a = .ok b := by
  cases x with
  | ok a =>
    constructor
    · exact fun h => ⟨a, rfl, h⟩
    · rintro ⟨_, ⟨⟩, h⟩
      exact h
  | error e =>
    constructor
    · rintro ⟨⟩
    · rintro ⟨_, ⟨⟩, -⟩

/-- Database settings are read from entries of the four keys. -/
theorem DatabaseSettings.ofFields_eq_ok {fields : List (String × Json)} {connection version timeout trace : Json}
    (hc : getField? "connection_string" fields = some connection)
    (hv : getField? "version" fields = some version)
    (ht : getField? "command_timeout_secs" fields = some timeout)
    (hr : getField? "trace_sql" fields = some trace) {d : DatabaseSettings} :
    ofFields fields = .ok d ↔ connection = .string d.connectionString ∧ version = .string d.version ∧
      timeout = .ofInt d.commandTimeoutSecs ∧ trace = .bool d.traceSql := by
  have hread : ofFields fields = (do
      let n ← readNatural timeout
      let s ← readText connection
      let b ← readBool trace
      let v ← readText version
      .ok { connectionString := s, version := v, commandTimeoutSecs := n, traceSql := b }) := by
    simp only [ofFields, optionalField, hc, hv, ht, hr]
    cases readNatural timeout <;> cases readText connection <;> cases readBool trace <;>
      cases readText version <;> rfl
  rw [hread]
  simp only [bind_eq_ok_iff, readNatural_eq_ok, readText_eq_ok, readBool_eq_ok, Except.ok.injEq]
  constructor
  · rintro ⟨n, rfl, s, rfl, b, rfl, v, rfl, rfl⟩
    exact ⟨rfl, rfl, rfl, rfl⟩
  · rintro ⟨rfl, rfl, rfl, rfl⟩
    exact ⟨_, rfl, _, rfl, _, rfl, _, rfl, rfl⟩

/-- Settings are read from entries of the three keys, the one for the database an object. -/
theorem Settings.ofFields_eq_ok {fields database : List (String × Json)} {debug level : Json}
    (hd : getField? "debug" fields = some debug) (hl : getField? "log_level" fields = some level)
    (hdb : getField? "database" fields = some (.object database)) {s : Settings} :
    ofFields fields = .ok s ↔ debug = .bool s.debug ∧ level = .string s.logLevel ∧
      DatabaseSettings.ofFields database = .ok s.database := by
  have hread : ofFields fields = (do
      let d ← DatabaseSettings.ofFields database
      let b ← readBool debug
      let l ← readText level
      .ok { debug := b, logLevel := l, database := d }) := by
    simp only [ofFields, optionalField, hd, hl, hdb, DatabaseSettings.ofJson]
    cases DatabaseSettings.ofFields database <;> cases readBool debug <;> cases readText level <;> rfl
  rw [hread]
  simp only [bind_eq_ok_iff, readText_eq_ok, readBool_eq_ok, Except.ok.injEq]
  constructor
  · rintro ⟨d, hdatabase, b, rfl, l, rfl, rfl⟩
    exact ⟨rfl, rfl, hdatabase⟩
  · rintro ⟨rfl, rfl, hdatabase⟩
    exact ⟨_, hdatabase, _, rfl, _, rfl, rfl⟩

/-! ### Laying a document over the defaults -/

def Json.isScalar : Json → Bool
  | .array _ | .object _ => false
  | _ => true

theorem normalize_eq_iff {j x : Json} (hx : x.isScalar = true) : j.normalize = x ↔ j = x := by
  cases j with
  | array items =>
    rw [Json.normalize]
    constructor <;> rintro rfl <;> cases hx
  | object fields =>
    rw [Json.normalize]
    constructor <;> rintro rfl <;> cases hx
  | _ => exact Iff.rfl

theorem merge_of_isScalar {base : Json} (h : base.isScalar = true) (upper : Json) :
    Json.merge base upper = upper := by
  cases upper with
  | object fields =>
    cases base with
    | array | object => cases h
    | _ =>
      rw [merge]
      rintro _ ⟨⟩
  | _ =>
    rw [merge]
    rintro _ ⟨⟩

/-- A scalar of an object that others lie over is the last entry of its key, or stays. -/
theorem getField?_laid {key : String} {base : List (String × Json)} {default : Json}
    (hbase : getField? key base = some default) (hdefault : default.isScalar = true)
    (fields : List (String × Json)) :
    getField? key (mergeFields base (orderFields (normalizeFields fields))) =
      some (((lastField? key fields).map Json.normalize).getD default) := by
  rw [getField?_mergeFields key base (ascending_orderFields _), getField?_orderFields_eq_last,
    lastField?_normalizeFields, hbase]
  cases lastField? key fields with
  | none => rfl
  | some j => simp only [Option.map_some, Option.getD_some, mergeOption, merge_of_isScalar hdefault]

theorem getD_normalize_eq_iff {j? : Option Json} {default x : Json} (hx : x.isScalar = true) :
    (j?.map Json.normalize).getD default = x ↔ j?.getD default = x := by
  cases j? with
  | none => rfl
  | some j => exact normalize_eq_iff hx

namespace DatabaseSettings

def defaultFields : List (String × Json) :=
  [("command_timeout_secs", .ofInt 30), ("connection_string", .string ""), ("trace_sql", .bool false),
    ("version", .string "Sql13")]

/-- Entries laid over the defaults are read as the settings that they give. -/
theorem ofFields_laid {fields : List (String × Json)} {d : DatabaseSettings} :
    ofFields (mergeFields defaultFields (orderFields (normalizeFields fields))) = .ok d ↔ d.Given fields := by
  rw [ofFields_eq_ok (getField?_laid (by rfl) (by rfl) fields) (getField?_laid (by rfl) (by rfl) fields)
    (getField?_laid (by rfl) (by rfl) fields) (getField?_laid (by rfl) (by rfl) fields),
    getD_normalize_eq_iff rfl, getD_normalize_eq_iff rfl, getD_normalize_eq_iff rfl,
    getD_normalize_eq_iff rfl]
  constructor
  · rintro ⟨hc, hv, ht, hr⟩
    exact ⟨hc, hv, ht, hr⟩
  · rintro ⟨hc, hv, ht, hr⟩
    exact ⟨hc, hv, ht, hr⟩

end DatabaseSettings

namespace Settings

def defaultFields : List (String × Json) :=
  [("database", .object DatabaseSettings.defaultFields), ("debug", .bool true), ("log_level", .string "info")]

theorem json_default : ({} : Settings).json = .object defaultFields := rfl

theorem getField?_database_laid {fields : List (String × Json)} (h : HasDatabaseObject fields) :
    getField? "database" (mergeFields defaultFields (orderFields (normalizeFields fields))) =
      some (.object (mergeFields DatabaseSettings.defaultFields
        (orderFields (normalizeFields (databaseFields fields))))) := by
  rw [getField?_mergeFields _ _ (ascending_orderFields _), getField?_orderFields_eq_last,
    lastField?_normalizeFields, databaseFields]
  cases hlast : lastField? "database" fields with
  | none =>
    simp only [Option.map_none, normalizeFields, orderFields, List.foldl_nil, mergeFields]
    rfl
  | some j =>
    obtain ⟨entries, rfl⟩ := h j hlast
    have hbase : getField? "database" defaultFields = some (.object DatabaseSettings.defaultFields) := rfl
    simp only [Option.map_some, Json.normalize, hbase, mergeOption, merge]

theorem read_eq_ok_iff {format : Format} {text : String} {fields : List (String × Json)}
    (hdocument : readDocument? format text = some (.object fields)) (h : HasDatabaseObject fields)
    {s : Settings} : read format text = .ok s ↔ s.Given fields := by
  have hread : read format text = ofDocument format (.object fields) := by rw [read, hdocument]
  have hfields : ofDocument format (.object fields) = .ok s ↔
      ofFields (mergeFields defaultFields (orderFields (normalizeFields fields))) = .ok s := by
    rw [ofDocument, json_default, Json.normalize, merge, ofJson]
    cases ofFields (mergeFields defaultFields (orderFields (normalizeFields fields))) <;> simp
  rw [hread, hfields, ofFields_eq_ok (getField?_laid (by rfl) (by rfl) fields)
    (getField?_laid (by rfl) (by rfl) fields) (getField?_database_laid h), getD_normalize_eq_iff rfl,
    getD_normalize_eq_iff rfl, DatabaseSettings.ofFields_laid]
  constructor
  · rintro ⟨hd, hl, hdb⟩
    exact ⟨hd, hl, hdb⟩
  · rintro ⟨hd, hl, hdb⟩
    exact ⟨hd, hl, hdb⟩

end Settings

/-- The entries of the settings are the same ones in two documents, whatever else they hold. -/
def SameEntries (fields fields' : List (String × Json)) : Prop :=
  (∀ key ∈ ["debug", "log_level"], lastField? key fields = lastField? key fields') ∧
    ∀ key ∈ ["connection_string", "version", "command_timeout_secs", "trace_sql"],
      lastField? key (databaseFields fields) = lastField? key (databaseFields fields')

theorem DatabaseSettings.given_congr {fields fields' : List (String × Json)}
    (h : ∀ key ∈ ["connection_string", "version", "command_timeout_secs", "trace_sql"],
      lastField? key fields = lastField? key fields') {d : DatabaseSettings} (hd : d.Given fields) :
    d.Given fields' where
  connectionString := h "connection_string" (by simp) ▸ hd.connectionString
  version := h "version" (by simp) ▸ hd.version
  commandTimeoutSecs := h "command_timeout_secs" (by simp) ▸ hd.commandTimeoutSecs
  traceSql := h "trace_sql" (by simp) ▸ hd.traceSql

theorem SameEntries.symm {fields fields' : List (String × Json)} (h : SameEntries fields fields') :
    SameEntries fields' fields :=
  ⟨fun key hkey => (h.1 key hkey).symm, fun key hkey => (h.2 key hkey).symm⟩

theorem Settings.given_congr {fields fields' : List (String × Json)} (h : SameEntries fields fields')
    {s : Settings} : s.Given fields ↔ s.Given fields' := by
  have himp {fields fields' : List (String × Json)} (h : SameEntries fields fields') (hs : s.Given fields) :
      s.Given fields' := {
    debug := h.1 "debug" (by simp) ▸ hs.debug
    logLevel := h.1 "log_level" (by simp) ▸ hs.logLevel
    database := DatabaseSettings.given_congr h.2 hs.database }
  exact ⟨himp h, himp h.symm⟩

/-! ### The environment -/

/-- A text counts as a number of seconds if it is one of sixty-four bits, between blanks and perhaps after a
plus sign. -/
theorem readSeconds?_eq_some {value : String} {n : Nat} :
    readSeconds? value = some n ↔ n < UInt64.size ∧
      ∃ width, trim value.toList = padded width n ∨ trim value.toList = '+' :: padded width n := by
  have hread (ds : List Char) :
      (do let m ← ofDigits? ds; if m < UInt64.size then some m else none) = some n ↔
        n < UInt64.size ∧ ∃ width, ds = padded width n := by
    constructor
    · intro h
      obtain ⟨m, hm, h⟩ := Option.bind_eq_some_iff.1 h
      split at h
      case isFalse => cases h
      case isTrue hlt =>
        obtain rfl := Option.some.inj h
        exact ⟨hlt, _, eq_padded_of_ofDigits? hm⟩
    · rintro ⟨hlt, width, rfl⟩
      rw [ofDigits?_padded, Option.bind_eq_bind, Option.bind_some, if_pos hlt]
  -- Padded digits have no sign, so a text is read behind its sign or as a whole.
  have hplus (width : Nat) (r : List Char) : '+' :: r ≠ padded width n := by
    intro h
    have hdigit : isDigit '+' = true := isDigit_of_mem_padded (h ▸ List.mem_cons_self)
    cases hdigit
  unfold readSeconds?
  split
  next r hr => simp only [hr, hread, hplus, List.cons.injEq, true_and, false_or]
  next cs hcs =>
    have hunsigned (width : Nat) : trim value.toList ≠ '+' :: padded width n := hcs _
    simp only [hread, hunsigned, or_false]

namespace Settings

/-- `s'` is `s` under an environment: a variable that is set decides its own setting, a time limit only if
it is one, and every other setting stays. -/
structure Overrides (env : Environment) (s s' : Settings) : Prop where
  debug : s'.debug = ((env.lookup "DATA_RS_DEBUG").map readFlag).getD s.debug
  logLevel : s'.logLevel = (env.lookup "DATA_RS_LOG_LEVEL").getD s.logLevel
  connectionString :
    s'.database.connectionString = (env.lookup "DATA_RS_CONNECTION_STRING").getD s.database.connectionString
  version : s'.database.version = (env.lookup "DATA_RS_SQL_VERSION").getD s.database.version
  commandTimeoutSecs : s'.database.commandTimeoutSecs =
    ((env.lookup "DATA_RS_COMMAND_TIMEOUT").bind readSeconds?).getD s.database.commandTimeoutSecs
  traceSql : s'.database.traceSql = ((env.lookup "DATA_RS_TRACE_SQL").map readFlag).getD s.database.traceSql

def overriddenAt (env : Environment) (s : Settings) (v : Variable) : Settings :=
  match env.lookup v.name with
  | some value => s.set v value
  | none => s

theorem overriddenAt_eq (env : Environment) (s : Settings) (v : Variable) : s.overriddenAt env v =
    match v with
    | .debug => { s with debug := ((env.lookup v.name).map readFlag).getD s.debug }
    | .logLevel => { s with logLevel := (env.lookup v.name).getD s.logLevel }
    | .connectionString =>
      { s with database.connectionString := (env.lookup v.name).getD s.database.connectionString }
    | .version => { s with database.version := (env.lookup v.name).getD s.database.version }
    | .commandTimeout =>
      { s with database.commandTimeoutSecs :=
          ((env.lookup v.name).bind readSeconds?).getD s.database.commandTimeoutSecs }
    | .traceSql =>
      { s with database.traceSql := ((env.lookup v.name).map readFlag).getD s.database.traceSql } := by
  rw [overriddenAt]
  cases env.lookup v.name with
  | none => cases v <;> rfl
  | some value =>
    cases v with
    | commandTimeout =>
      simp only [set, Option.bind_some]
      cases readSeconds? value <;> rfl
    | _ => rfl

theorem overrides_overriddenBy (env : Environment) (s : Settings) : s.Overrides env (s.overriddenBy env) := by
  have hfold : s.overriddenBy env = Variable.all.foldl (overriddenAt env) s := rfl
  simp only [Variable.all, List.foldl_cons, List.foldl_nil, overriddenAt_eq] at hfold
  rw [hfold]
  exact ⟨rfl, rfl, rfl, rfl, rfl, rfl⟩

/-- The same environment changes nothing more. -/
theorem Overrides.eq_of_again {env : Environment} {s s' s'' : Settings} (h : s.Overrides env s')
    (h' : s'.Overrides env s'') : s'' = s' := by
  have hagain {α : Type} {given? : Option α} {a b c : α} (hb : b = given?.getD a) (hc : c = given?.getD b) :
      c = b := by
    cases given? with
    | none => exact hc
    | some x => exact hc.trans hb.symm
  obtain ⟨debug, logLevel, ⟨connection, version, timeout, trace⟩⟩ := s''
  obtain rfl := hagain h.debug h'.debug
  obtain rfl := hagain h.logLevel h'.logLevel
  obtain rfl := hagain h.connectionString h'.connectionString
  obtain rfl := hagain h.version h'.version
  obtain rfl := hagain h.commandTimeoutSecs h'.commandTimeoutSecs
  obtain rfl := hagain h.traceSql h'.traceSql
  rfl

/-- Data that both formats can say are the same settings in both. -/
theorem read_document_eq_ok_iff {text : String} {fields : List (String × Json)}
    (hdocument : readDocument? .json text = some (.object fields))
    (hwritable : Toml.Writable (Toml.depthLimit + 1) (.object fields)) (h : HasDatabaseObject fields)
    {s : Settings} : read .toml (Toml.document fields) = .ok s ↔ read .json text = .ok s := by
  have htoml : readDocument? .toml (Toml.document fields) = some (.object fields) :=
    Toml.read?_document hwritable
  rw [read_eq_ok_iff htoml h, read_eq_ok_iff hdocument h]

/-- A document decides the settings whose keys it has, the same in every format, and the defaults the others;
variables of the environment then decide theirs, once and for all. -/
theorem precedence :
    (∀ (format : Format) (text : String) (fields : List (String × Json)),
      readDocument? format text = some (.object fields) → HasDatabaseObject fields →
        ∀ s, read format text = .ok s ↔ s.Given fields) ∧
    (∀ (format format' : Format) (text text' : String) (fields fields' : List (String × Json)),
      readDocument? format text = some (.object fields) → readDocument? format' text' = some (.object fields') →
        HasDatabaseObject fields → HasDatabaseObject fields' → SameEntries fields fields' →
          ∀ s, read format text = .ok s ↔ read format' text' = .ok s) ∧
    (∀ (text : String) (fields : List (String × Json)), readDocument? .json text = some (.object fields) →
      Toml.Writable (Toml.depthLimit + 1) (.object fields) → HasDatabaseObject fields →
        ∀ s, read .toml (Toml.document fields) = .ok s ↔ read .json text = .ok s) ∧
    (∀ (s : Settings) (env : Environment),
      s.Overrides env (s.overriddenBy env) ∧ (s.overriddenBy env).overriddenBy env = s.overriddenBy env) ∧
    (∀ (value : String) (n : Nat), readSeconds? value = some n ↔ n < UInt64.size ∧
      ∃ width, trim value.toList = padded width n ∨ trim value.toList = '+' :: padded width n) := by
  refine ⟨?reading, ?unknown, ?written, ?overriding, fun value n => readSeconds?_eq_some⟩
  case reading => exact fun format text fields hdocument h s => read_eq_ok_iff hdocument h
  case unknown =>
    intro format format' text text' fields fields' hdocument hdocument' h h' hsame s
    rw [read_eq_ok_iff hdocument h, read_eq_ok_iff hdocument' h', given_congr hsame]
  case written => exact fun text fields hdocument hwritable h s => read_document_eq_ok_iff hdocument hwritable h
  case overriding =>
    intro s env
    have hover := overrides_overriddenBy env s
    exact ⟨hover, hover.eq_of_again (overrides_overriddenBy env _)⟩

/-- Settings for one store, with a key that stands twice and one that no setting has. -/
def storeJson : String :=
  "\x7b\"debug\":true,\"debug\":false,\"color\":7,\"database\":\x7b\"version\":\"Sql14\"\x7d\x7d"

/-- The same settings in the other format, with another key that no setting has. -/
def storeToml : String := "debug = false\n[database]\nversion = \"Sql14\"\nretries = 5\n"

def storeFields : List (String × Json) :=
  [("debug", .bool false), ("database", .object [("version", .string "Sql14"), ("retries", .ofInt 5)])]

def storePlainJson : String := "\x7b\"debug\":false,\"database\":\x7b\"version\":\"Sql14\",\"retries\":5\x7d\x7d"

def storeSettings : Settings := { debug := false, database := { version := "Sql14" } }

/-- An environment that sets a flag and a time limit. -/
def storeEnvironment : Environment := [("DATA_RS_DEBUG", "Yes"), ("DATA_RS_COMMAND_TIMEOUT", " +05 ")]

theorem precedence_store :
    read .json storeJson = .ok storeSettings ∧ read .toml storeToml = .ok storeSettings ∧
      read .toml (Toml.document storeFields) = .ok storeSettings ∧
      (storeSettings.overriddenBy storeEnvironment).debug = true ∧
      (storeSettings.overriddenBy storeEnvironment).database.version = "Sql14" ∧
      (storeSettings.overriddenBy storeEnvironment).database.commandTimeoutSecs = 5 := by
  obtain ⟨hread, hsame, hwritten, hoverrides, hseconds⟩ := precedence
  have hjson : readDocument? .json storeJson = some (.object [("debug", .bool true), ("debug", .bool false),
      ("color", .ofInt 7), ("database", .object [("version", .string "Sql14")])]) := by cbv
  have hplain : readDocument? .json storePlainJson = some (.object storeFields) := by cbv
  have htoml : readDocument? .toml storeToml = some (.object storeFields) := by cbv
  have hobject {fields entries : List (String × Json)}
      (h : lastField? "database" fields = some (.object entries)) : HasDatabaseObject fields :=
    fun j hj => ⟨entries, Option.some.inj (hj.symm.trans h)⟩
  have hentries : SameEntries [("debug", .bool true), ("debug", .bool false), ("color", .ofInt 7),
      ("database", .object [("version", .string "Sql14")])] storeFields := by
    simp only [SameEntries, List.forall_mem_cons, List.not_mem_nil, false_implies, implies_true, and_true]
    exact ⟨⟨rfl, rfl⟩, rfl, rfl, rfl, rfl⟩
  have hwritable : Toml.Writable (Toml.depthLimit + 1) (.object storeFields) := by
    simp [storeFields, Toml.Writable, Toml.FieldsWritable, Toml.depthLimit, Toml.momentKey, Json.ofInt, fitsInt64,
      minInt64, maxInt64]
  have hfromJson : read .json storeJson = .ok storeSettings :=
    (hread _ _ _ hjson (hobject rfl) _).2 ⟨rfl, rfl, rfl, rfl, rfl, rfl⟩
  have hfromPlain : read .json storePlainJson = .ok storeSettings :=
    (hread _ _ _ hplain (hobject rfl) _).2 ⟨rfl, rfl, rfl, rfl, rfl, rfl⟩
  have htimeout : readSeconds? " +05 " = some 5 :=
    (hseconds _ _).2 ⟨by decide, 2, .inr (by decide +kernel)⟩
  obtain ⟨hover, -⟩ := hoverrides storeSettings storeEnvironment
  refine ⟨hfromJson, (hsame _ _ _ _ _ _ hjson htoml (hobject rfl) (hobject rfl) hentries _).1 hfromJson,
    (hwritten _ _ hplain hwritable (hobject rfl) _).2 hfromPlain,
    hover.debug.trans (by decide +kernel), hover.version, ?_⟩
  rw [hover.commandTimeoutSecs]
  exact congrArg (Option.getD · 30) htimeout

end Settings

end Tsql

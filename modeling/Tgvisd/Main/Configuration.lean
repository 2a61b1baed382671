import Tgvisd.Lib.Basic
import Tgvisd.Lib.Block

/-!
# Configuration from the environment

`main` reads the data of the application and `DB::create_conn_from_env` those of the database from
environment variables. `atoi` is `(int) strtol(text, NULL, 10)` with a `long` of 64 bits.
-/

namespace Tgvisd.Configuration

/-! ## Text -/

/-- A string of the environment; it is terminated, so it has no terminator inside. -/
structure CString where
  text : List Char
  terminated : '\x00' ∉ text

abbrev Environment := String → Option CString

def isSpace (c : Char) : Bool := c ∈ [' ', '\t', '\n', '\x0b', '\x0c', '\r']

/-- The sign in front of a number, and what follows it. -/
def sign : List Char → ℤ × List Char
  | '-' :: text => (-1, text)
  | '+' :: text => (1, text)
  | text => (1, text)

def strtol (text : List Char) : ℤ :=
  let (sign, digits) := sign (text.dropWhile isSpace)
  max (-9223372036854775808) (min 9223372036854775807
    (sign * Decimal.value (digits.takeWhile Decimal.isDigit)))

/-- The conversion to `int` keeps the lowest 32 bits. -/
def atoi (text : List Char) : ℤ := (strtol text).bmod 4294967296

/-- `(uint32_t)` -/
def toUint32 (value : ℤ) : ℕ := (value % 4294967296).toNat

/-- `(uint16_t)` -/
def toUint16 (value : ℤ) : ℕ := (value % 65536).toNat

/-! ## `main` -/

/-- The arguments of the constructor of `Main`; a null pointer is `none`. -/
structure MainArguments where
  apiId : ℕ
  apiHash : Option CString
  dataPath : Option CString

/-- `main` up to the construction of `Main`, or the message that it prints before it returns 1. All
three tests are made on `api_id`. -/
def main (getenv : Environment) : Except String MainArguments := do
  let apiId := getenv "TGVISD_API_ID"
  if apiId.isNone then
    throw "Missing TGVISD_API_ID"
  let apiHash := getenv "TGVISD_API_HASH"
  if apiId.isNone then
    throw "Missing TGVISD_API_HASH"
  let dataPath := getenv "TGVISD_DATA_PATH"
  if apiId.isNone then
    throw "Missing TGVISD_DATA_PATH"
  return { apiId := toUint32 (atoi (apiId.elim [] CString.text)), apiHash, dataPath }

/-! ## `DB` -/

/-- The character arrays have 128 bytes. -/
structure DB where
  port : ℕ
  host : Block Char
  user : Block Char
  pass : Block Char
  database : Block Char
  sess : Option ℕ := none

def strncpy (dest : Block Char) (src : List Char) (n : ℕ) : Option (Block Char) :=
  dest.storeAll 0 (src.take n ++ List.replicate (n - src.length) '\x00')

/-- `strncpy(field, text, sizeof(field) - 1); field[sizeof(field) - 1] = '\0';` -/
def copyField (text : CString) : Option (Block Char) := do
  let field ← strncpy (Block.allocate 128) text.text 127
  field.store 127 '\x00'

namespace DB

/-- The constructor. -/
def new (host : CString) (port : ℕ) (user pass database : CString) : Option DB := do
  return { port := if port = 0 then 33060 else port
           host := ← copyField host
           user := ← copyField user
           pass := ← copyField pass
           database := ← copyField database }

def require (getenv : Environment) (name : String) : Except String CString :=
  match getenv name with
  | none => .error ("Missing " ++ name)
  | some value => .ok value

def createConnFromEnv (getenv : Environment) : Except String (Option DB) := do
  let host ← require getenv "TGVISD_DB_HOST"
  let port ← require getenv "TGVISD_DB_PORT"
  let portNum := toUint16 (atoi port.text)
  let user ← require getenv "TGVISD_DB_USER"
  let pass ← require getenv "TGVISD_DB_PASS"
  let database ← require getenv "TGVISD_DB_NAME"
  return new host portNum user pass database

/-- The arguments of `mysqlx_get_session`, with the strings that its pointers refer to. -/
structure SessionRequest where
  host : Option (List Char)
  port : ℕ
  user : Option (List Char)
  pass : Option (List Char)
  database : Option (List Char)
  deriving DecidableEq, Repr

def close (db : DB) : DB := { db with sess := none }

/-- `session` is what `mysqlx_get_session` returns; an error is thrown after a null pointer. -/
def connect (db : DB) (session : Option ℕ) : SessionRequest × DB :=
  let db := if db.sess.isSome then db.close else db
  ({ host := db.host.stringAt '\x00' 0
     port := db.port
     user := db.user.stringAt '\x00' 0
     pass := db.pass.stringAt '\x00' 0
     database := db.database.stringAt '\x00' 0 }, { db with sess := session })

/-- What a program does with a `DB`, as far as its connection goes. -/
inductive Call
  | connect (session : Option ℕ)
  | close
  deriving DecidableEq, Repr

/-- The requests of a sequence of calls. -/
def requests : DB → List Call → List SessionRequest
  | _, [] => []
  | db, .connect session :: calls =>
    (db.connect session).1 :: (db.connect session).2.requests calls
  | db, .close :: calls => db.close.requests calls

end DB

/-! ## What the program runs with -/

/-- Whenever `main` constructs `Main`, every variable was there, and `Main` is given what they
say. -/
def EntryConfigured (getenv : Environment) : Prop :=
  ∀ arguments, main getenv = .ok arguments → ∃ apiId apiHash dataPath,
    getenv "TGVISD_API_ID" = some apiId ∧ getenv "TGVISD_API_HASH" = some apiHash ∧
    getenv "TGVISD_DATA_PATH" = some dataPath ∧
    Decimal.read apiId.text = some arguments.apiId ∧
    arguments.apiHash = some apiHash ∧ arguments.dataPath = some dataPath

/-- Whenever `create_conn_from_env` returns, every variable was there, and whenever `connect` asks
for a session, it asks for the one that they describe. -/
def DatabaseConfigured (getenv : Environment) : Prop :=
  ∀ result, DB.createConnFromEnv getenv = .ok result →
    ∃ db host port user pass database number, result = some db ∧
      getenv "TGVISD_DB_HOST" = some host ∧ getenv "TGVISD_DB_PORT" = some port ∧
      getenv "TGVISD_DB_USER" = some user ∧ getenv "TGVISD_DB_PASS" = some pass ∧
      getenv "TGVISD_DB_NAME" = some database ∧ Decimal.read port.text = some number ∧
      ∀ calls, ∀ request ∈ db.requests calls, request =
        { host := some host.text
          port := if number = 0 then 33060 else number
          user := some user.text
          pass := some pass.text
          database := some database.text }

/-- `TGVISD_API_ID` is not set; or all three variables are, and it is a number of 32 bits. -/
def EntryFits (getenv : Environment) : Prop :=
  getenv "TGVISD_API_ID" = none ∨
    (∃ apiId number, getenv "TGVISD_API_ID" = some apiId ∧
      Decimal.read apiId.text = some number ∧ number < 4294967296) ∧
    (getenv "TGVISD_API_HASH").isSome = true ∧ (getenv "TGVISD_DATA_PATH").isSome = true

/-- A variable is not set; or the port is a number of 16 bits, and no other is longer than 127
characters. -/
def DatabaseFits (getenv : Environment) : Prop :=
  (∃ name ∈ ["TGVISD_DB_HOST", "TGVISD_DB_PORT", "TGVISD_DB_USER", "TGVISD_DB_PASS",
    "TGVISD_DB_NAME"], getenv name = none) ∨
  (∃ port number, getenv "TGVISD_DB_PORT" = some port ∧
    Decimal.read port.text = some number ∧ number < 65536) ∧
  ∀ name ∈ ["TGVISD_DB_HOST", "TGVISD_DB_USER", "TGVISD_DB_PASS", "TGVISD_DB_NAME"],
    ∀ value, getenv name = some value → value.text.length ≤ 127

/-! ## Numbers -/

theorem isSpace_of_isDigit {c : Char} (h : Decimal.isDigit c = true) : isSpace c = false := by
  by_contra hspace
  simp only [isSpace, List.mem_cons, List.not_mem_nil, or_false, Bool.decide_or, Bool.not_eq_false,
    Bool.or_eq_true, decide_eq_true_eq] at hspace
  rcases hspace with rfl | rfl | rfl | rfl | rfl | rfl <;> exact absurd h (by decide)

theorem sign_of_isDigit {c : Char} (h : Decimal.isDigit c = true) (text : List Char) :
    sign (c :: text) = (1, c :: text) := by
  have hminus : c ≠ '-' := by
    rintro rfl
    exact absurd h (by decide)
  have hplus : c ≠ '+' := by
    rintro rfl
    exact absurd h (by decide)
  unfold sign
  split
  · rename_i heq
    exact absurd (List.cons.inj heq).1 hminus
  · rename_i heq
    exact absurd (List.cons.inj heq).1 hplus
  · rfl

/-- `strtol` reads a number in decimal notation, if it is a `long`. -/
theorem strtol_of_read {text : List Char} {number : ℕ} (h : Decimal.read text = some number)
    (hsmall : number < 9223372036854775808) : strtol text = number := by
  obtain ⟨hne, hdigits, hvalue⟩ := Decimal.read_eq_some_iff.mp h
  cases text with
  | nil => exact absurd rfl hne
  | cons c text =>
    have hc : Decimal.isDigit c = true := hdigits c List.mem_cons_self
    have hdrop : (c :: text).dropWhile isSpace = c :: text := by
      simp [isSpace_of_isDigit hc]
    simp only [strtol, hdrop, sign_of_isDigit hc, Decimal.takeWhile_isDigit hdigits, hvalue]
    omega

theorem toUint32_atoi {text : List Char} {number : ℕ} (h : Decimal.read text = some number)
    (hsmall : number < 4294967296) : toUint32 (atoi text) = number := by
  have hsame : (number : ℤ).bmod 4294967296 % 4294967296 = number % 4294967296 := Int.bmod_emod
  rw [toUint32, atoi, strtol_of_read h (by omega), hsame]
  omega

theorem toUint16_atoi {text : List Char} {number : ℕ} (h : Decimal.read text = some number)
    (hsmall : number < 65536) : toUint16 (atoi text) = number := by
  have hsame : (number : ℤ).bmod 4294967296 = number := by
    apply Int.bmod_eq_of_le <;> omega
  rw [toUint16, atoi, strtol_of_read h (by omega), hsame]
  omega

theorem toUint32_lt (value : ℤ) : toUint32 value < 4294967296 := by
  unfold toUint32
  omega

theorem toUint16_lt (value : ℤ) : toUint16 value < 65536 := by
  unfold toUint16
  omega

/-! ## The entry -/

theorem main_eq (getenv : Environment) : main getenv =
    match getenv "TGVISD_API_ID" with
    | none => .error "Missing TGVISD_API_ID"
    | some apiId => .ok
      { apiId := toUint32 (atoi apiId.text)
        apiHash := getenv "TGVISD_API_HASH"
        dataPath := getenv "TGVISD_DATA_PATH" } := by
  unfold main
  cases getenv "TGVISD_API_ID" <;> rfl

theorem entryConfigured_iff (getenv : Environment) :
    EntryConfigured getenv ↔ EntryFits getenv := by
  cases hid : getenv "TGVISD_API_ID" with
  | none => simp [EntryConfigured, EntryFits, main_eq, hid]
  | some apiId =>
    constructor
    · intro h
      obtain ⟨same, apiHash, dataPath, hsame, hhash, hpath, hread, -, -⟩ := h _ (by
        rw [main_eq, hid])
      obtain rfl := Option.some.inj (hid.symm.trans hsame)
      exact .inr ⟨⟨apiId, _, hid, hread, toUint32_lt _⟩, by simp [hhash], by simp [hpath]⟩
    · intro h arguments harguments
      rw [main_eq, hid, Except.ok.injEq] at harguments
      obtain ⟨⟨same, number, hsame, hread, hsmall⟩, hhash, hpath⟩ := h.resolve_left (by simp [hid])
      obtain rfl := Option.some.inj (hid.symm.trans hsame)
      obtain ⟨apiHash, hhash⟩ := Option.isSome_iff_exists.mp hhash
      obtain ⟨dataPath, hpath⟩ := Option.isSome_iff_exists.mp hpath
      subst harguments
      exact ⟨apiId, apiHash, dataPath, hid, hhash, hpath, by rw [hread, toUint32_atoi hread hsmall],
        hhash, hpath⟩

/-! ## The database -/

/-- A field holds the text up to its 127th character. -/
theorem copyField_eq (text : CString) : ∃ field, copyField text = some field ∧
    field.stringAt '\x00' 0 = some (text.text.take 127) := by
  have hlength : (text.text.take 127 ++
      List.replicate (127 - text.text.length) '\x00').length = 127 := by
    simp only [List.length_append, List.length_take, List.length_replicate]
    omega
  obtain ⟨copied, hcopied, ⟨back, hback⟩, hsize⟩ :=
    (Block.allocate 128 : Block Char).begins_nil.storeAll (text.text.take 127 ++
      List.replicate (127 - text.text.length) '\x00') (by simp [hlength])
  obtain ⟨last, rfl⟩ : ∃ last, back = [last] := by
    rw [Block.size_allocate, Block.size, hback] at hsize
    simp only [List.nil_append, List.length_append, List.length_map, List.length_take,
      List.length_replicate] at hsize
    exact List.length_eq_one_iff.mp (by omega)
  have hstore := Block.store_eq hback '\x00'
  rw [List.nil_append, List.length_map, hlength] at hstore
  rw [List.length_nil] at hcopied
  refine ⟨_, by rw [copyField, strncpy, hcopied]; exact hstore, ?_⟩
  have hvalues : '\x00' ∉ text.text.take 127 :=
    fun hmem ↦ text.terminated (List.mem_of_mem_take hmem)
  cases hpad : 127 - text.text.length with
  | zero =>
    apply Block.Begins.stringAt _ hvalues
    exact ⟨[], by simp⟩
  | succ count =>
    apply Block.Begins.stringAt _ hvalues
    exact ⟨List.replicate count (some '\x00') ++ [some '\x00'], by simp [List.replicate_succ]⟩

namespace DB

theorem new_eq (host : CString) (port : ℕ) (user pass database : CString) :
    ∃ db, new host port user pass database = some db ∧
      db.port = (if port = 0 then 33060 else port) ∧
      db.host.stringAt '\x00' 0 = some (host.text.take 127) ∧
      db.user.stringAt '\x00' 0 = some (user.text.take 127) ∧
      db.pass.stringAt '\x00' 0 = some (pass.text.take 127) ∧
      db.database.stringAt '\x00' 0 = some (database.text.take 127) := by
  obtain ⟨hostField, hhost, hhost'⟩ := copyField_eq host
  obtain ⟨userField, huser, huser'⟩ := copyField_eq user
  obtain ⟨passField, hpass, hpass'⟩ := copyField_eq pass
  obtain ⟨databaseField, hdatabase, hdatabase'⟩ := copyField_eq database
  exact ⟨_, by simp [new, hhost, huser, hpass, hdatabase]; rfl, rfl, hhost', huser', hpass',
    hdatabase'⟩

theorem connect_fst (db : DB) (session : Option ℕ) : (db.connect session).1 =
    { host := db.host.stringAt '\x00' 0
      port := db.port
      user := db.user.stringAt '\x00' 0
      pass := db.pass.stringAt '\x00' 0
      database := db.database.stringAt '\x00' 0 } := by
  unfold connect
  split_ifs <;> rfl

/-- The fields never change, so every request is the same. -/
theorem mem_requests {db : DB} {calls : List Call} {request : SessionRequest}
    (h : request ∈ db.requests calls) : request = (db.connect none).1 := by
  have hagain (db : DB) (session : Option ℕ) :
      ((db.connect session).2.connect none).1 = (db.connect none).1 := by
    rw [connect_fst, connect_fst]
    unfold connect
    split_ifs <;> rfl
  induction calls generalizing db with
  | nil => simp [requests] at h
  | cons call calls ih =>
    cases call with
    | connect session =>
      rw [requests, List.mem_cons] at h
      rcases h with rfl | h
      · rw [connect_fst, connect_fst]
      · exact (ih h).trans (hagain db session)
    | close => exact (ih h).trans (by rw [connect_fst, connect_fst]; rfl)

theorem require_eq_ok_iff {getenv : Environment} {name : String} {value : CString} :
    require getenv name = .ok value ↔ getenv name = some value := by
  unfold require
  cases getenv name <;> simp

/-- The text of an error names a variable that is not set. -/
theorem require_eq_error {getenv : Environment} {name message : String}
    (h : require getenv name = .error message) :
    getenv name = none ∧ message = "Missing " ++ name := by
  unfold require at h
  cases hname : getenv name with
  | none =>
    rw [hname] at h
    exact ⟨rfl, (Except.error.inj h).symm⟩
  | some value =>
    rw [hname] at h
    cases h

/-- Every error of `create_conn_from_env` names a variable that is not set. -/
theorem createConnFromEnv_eq_error {getenv : Environment} {message : String}
    (h : createConnFromEnv getenv = .error message) :
    ∃ name ∈ ["TGVISD_DB_HOST", "TGVISD_DB_PORT", "TGVISD_DB_USER", "TGVISD_DB_PASS",
      "TGVISD_DB_NAME"], getenv name = none ∧ message = "Missing " ++ name := by
  simp only [createConnFromEnv, bind_eq_error, pure, Except.pure, reduceCtorEq, and_false,
    exists_false, or_false] at h
  rcases h with h | ⟨_, -, h | ⟨_, -, h | ⟨_, -, h | ⟨_, -, h⟩⟩⟩⟩ <;>
    exact ⟨_, by simp, require_eq_error h⟩

theorem createConnFromEnv_eq_ok_iff {getenv : Environment} {result : Option DB} :
    createConnFromEnv getenv = .ok result ↔ ∃ host port user pass database,
      getenv "TGVISD_DB_HOST" = some host ∧ getenv "TGVISD_DB_PORT" = some port ∧
      getenv "TGVISD_DB_USER" = some user ∧ getenv "TGVISD_DB_PASS" = some pass ∧
      getenv "TGVISD_DB_NAME" = some database ∧
      new host (toUint16 (atoi port.text)) user pass database = result := by
  constructor
  · intro h
    simp only [createConnFromEnv, bind_eq_ok, pure_eq_ok, require_eq_ok_iff] at h
    obtain ⟨host, hhost, port, hport, user, huser, pass, hpass, database, hdatabase, rfl⟩ := h
    exact ⟨host, port, user, pass, database, hhost, hport, huser, hpass, hdatabase, rfl⟩
  · rintro ⟨host, port, user, pass, database, hhost, hport, huser, hpass, hdatabase, rfl⟩
    simp [createConnFromEnv, require, hhost, hport, huser, hpass, hdatabase, bind, Except.bind,
      pure, Except.pure]

end DB

/-- What every request of a connection from the environment says. -/
theorem DB.connect_of_createConnFromEnv {getenv : Environment} {result : Option DB}
    {host port user pass database : CString} (hhost : getenv "TGVISD_DB_HOST" = some host)
    (hport : getenv "TGVISD_DB_PORT" = some port) (huser : getenv "TGVISD_DB_USER" = some user)
    (hpass : getenv "TGVISD_DB_PASS" = some pass)
    (hdatabase : getenv "TGVISD_DB_NAME" = some database)
    (h : createConnFromEnv getenv = .ok result) : ∃ db, result = some db ∧
      (db.connect none).1 =
        { host := some (host.text.take 127)
          port := if toUint16 (atoi port.text) = 0 then 33060 else toUint16 (atoi port.text)
          user := some (user.text.take 127)
          pass := some (pass.text.take 127)
          database := some (database.text.take 127) } := by
  obtain ⟨host', port', user', pass', database', hhost', hport', huser', hpass', hdatabase',
    hnew⟩ := createConnFromEnv_eq_ok_iff.mp h
  obtain rfl := Option.some.inj (hhost.symm.trans hhost')
  obtain rfl := Option.some.inj (hport.symm.trans hport')
  obtain rfl := Option.some.inj (huser.symm.trans huser')
  obtain rfl := Option.some.inj (hpass.symm.trans hpass')
  obtain rfl := Option.some.inj (hdatabase.symm.trans hdatabase')
  obtain ⟨db, hdb, hfield⟩ := new_eq host (toUint16 (atoi port.text)) user pass database
  obtain ⟨hportField, hhostField, huserField, hpassField, hdatabaseField⟩ := hfield
  refine ⟨db, hnew.symm.trans hdb, ?_⟩
  rw [connect_fst, hportField, hhostField, huserField, hpassField, hdatabaseField]

/-- Without a variable the connection is not created. -/
theorem DB.createConnFromEnv_isSet {getenv : Environment} {result : Option DB}
    (h : createConnFromEnv getenv = .ok result) {name : String}
    (hname : name ∈ ["TGVISD_DB_HOST", "TGVISD_DB_PORT", "TGVISD_DB_USER", "TGVISD_DB_PASS",
      "TGVISD_DB_NAME"]) : getenv name ≠ none := by
  obtain ⟨host, port, user, pass, database, hhost, hport, huser, hpass, hdatabase, -⟩ :=
    createConnFromEnv_eq_ok_iff.mp h
  simp only [List.mem_cons, List.not_mem_nil, or_false] at hname
  rcases hname with rfl | rfl | rfl | rfl | rfl <;> simp [*]

theorem DB.exists_createConnFromEnv {getenv : Environment}
    (hset : ∀ name ∈ ["TGVISD_DB_HOST", "TGVISD_DB_PORT", "TGVISD_DB_USER", "TGVISD_DB_PASS",
      "TGVISD_DB_NAME"], getenv name ≠ none) : ∃ result, createConnFromEnv getenv = .ok result := by
  have hvalue (name : String) (hname : name ∈ ["TGVISD_DB_HOST", "TGVISD_DB_PORT",
      "TGVISD_DB_USER", "TGVISD_DB_PASS", "TGVISD_DB_NAME"]) : ∃ value, getenv name = some value :=
    Option.ne_none_iff_exists'.mp (hset name hname)
  obtain ⟨host, hhost⟩ := hvalue "TGVISD_DB_HOST" (by simp)
  obtain ⟨port, hport⟩ := hvalue "TGVISD_DB_PORT" (by simp)
  obtain ⟨user, huser⟩ := hvalue "TGVISD_DB_USER" (by simp)
  obtain ⟨pass, hpass⟩ := hvalue "TGVISD_DB_PASS" (by simp)
  obtain ⟨database, hdatabase⟩ := hvalue "TGVISD_DB_NAME" (by simp)
  exact ⟨_, createConnFromEnv_eq_ok_iff.mpr ⟨host, port, user, pass, database, hhost, hport, huser,
    hpass, hdatabase, rfl⟩⟩

theorem take_eq_self_iff {text : List Char} : text.take 127 = text ↔ text.length ≤ 127 := by
  constructor
  · intro h
    have hlength := congrArg List.length h
    rw [List.length_take] at hlength
    omega
  · exact List.take_of_length_le

theorem databaseConfigured_of_fits {getenv : Environment} (h : DatabaseFits getenv) :
    DatabaseConfigured getenv := by
  intro result hresult
  obtain ⟨host, port, user, pass, database, hhost, hport, huser, hpass, hdatabase, -⟩ :=
    DB.createConnFromEnv_eq_ok_iff.mp hresult
  have hset : ¬ ∃ name ∈ ["TGVISD_DB_HOST", "TGVISD_DB_PORT", "TGVISD_DB_USER", "TGVISD_DB_PASS",
      "TGVISD_DB_NAME"], getenv name = none := by
    rintro ⟨name, hname, hnone⟩
    exact DB.createConnFromEnv_isSet hresult hname hnone
  obtain ⟨⟨same, number, hsame, hread, hsmall⟩, hshort⟩ := h.resolve_left hset
  obtain rfl := Option.some.inj (hport.symm.trans hsame)
  obtain ⟨db, hdb, hconnect⟩ :=
    DB.connect_of_createConnFromEnv hhost hport huser hpass hdatabase hresult
  refine ⟨db, host, port, user, pass, database, number, hdb, hhost, hport, huser, hpass, hdatabase,
    hread, fun calls request hrequest ↦ ?_⟩
  rw [DB.mem_requests hrequest, hconnect, toUint16_atoi hread hsmall,
    take_eq_self_iff.mpr (hshort _ (by simp) _ hhost),
    take_eq_self_iff.mpr (hshort _ (by simp) _ huser),
    take_eq_self_iff.mpr (hshort _ (by simp) _ hpass),
    take_eq_self_iff.mpr (hshort _ (by simp) _ hdatabase)]

theorem databaseFits_of_configured {getenv : Environment} (h : DatabaseConfigured getenv) :
    DatabaseFits getenv := by
  by_cases hset : ∃ name ∈ ["TGVISD_DB_HOST", "TGVISD_DB_PORT", "TGVISD_DB_USER",
      "TGVISD_DB_PASS", "TGVISD_DB_NAME"], getenv name = none
  · exact .inl hset
  · obtain ⟨result, hresult⟩ := DB.exists_createConnFromEnv (by simpa using hset)
    obtain ⟨db, host, port, user, pass, database, number, rfl, hhost, hport, huser, hpass,
      hdatabase, hread, hrequests⟩ := h result hresult
    obtain ⟨same, hsame, hconnect⟩ :=
      DB.connect_of_createConnFromEnv hhost hport huser hpass hdatabase hresult
    obtain rfl := Option.some.inj hsame
    have hrequest := hrequests [.connect none] _ List.mem_cons_self
    rw [hconnect] at hrequest
    simp only [DB.SessionRequest.mk.injEq, Option.some.injEq, take_eq_self_iff] at hrequest
    obtain ⟨hhostShort, hportSame, huserShort, hpassShort, hdatabaseShort⟩ := hrequest
    refine .inr ⟨⟨port, number, hport, hread, ?_⟩, ?_⟩
    · have hlt := toUint16_lt (atoi port.text)
      split_ifs at hportSame <;> omega
    · intro name hname value hvalue
      simp only [List.mem_cons, List.not_mem_nil, or_false] at hname
      rcases hname with rfl | rfl | rfl | rfl <;> simp_all

/-- For every environment: the entry and the database run with what the environment says if and
only if the variables fit the checks and conversions of the code. -/
theorem configured_iff (getenv : Environment) :
    (EntryConfigured getenv ↔ EntryFits getenv) ∧
      (DatabaseConfigured getenv ↔ DatabaseFits getenv) :=
  ⟨entryConfigured_iff getenv, databaseFits_of_configured, databaseConfigured_of_fits⟩

/-- Only `TGVISD_API_ID` is set; or the port is 65536, and everything else fits. -/
theorem not_configured_missingHash :
    ¬ EntryConfigured (fun name ↦
      if name = "TGVISD_API_ID" then some ⟨['1'], by decide⟩ else none) ∧
    ¬ DatabaseConfigured (fun name ↦
      if name = "TGVISD_DB_PORT" then some ⟨['6', '5', '5', '3', '6'], by decide⟩
      else some ⟨['a'], by decide⟩) := by
  constructor
  · intro h
    have hfits := (entryConfigured_iff _).mp h
    simp [EntryFits] at hfits
  · intro h
    have hfits := databaseFits_of_configured h
    simp [DatabaseFits, Decimal.read, Decimal.isDigit, Decimal.value, Decimal.digitValue] at hfits

end Tgvisd.Configuration

import LakeFsAuth.Core.JsonReader

/-! The JSON of the wire models, as `serde` derives it. A reader ignores the fields it
does not know, refuses a field that comes twice, and takes the fields of a struct from
an array as well, in their order. -/
namespace LakeFsAuth.Core.Wire
open Std LakeFsAuth.Core Core.Json Core.Model Library

theorem mapM_each {α β γ : Type} {f : β → Option γ} {g : α → β} {h : α → γ} {items : List α}
    (each : ∀ item ∈ items, f (g item) = some (h item)) :
    (items.map g).mapM f = some (items.map h) := by
  induction items with
  | nil => rfl
  | cons item items ih =>
    have hitem := each item List.mem_cons_self
    have hitems := ih fun other hother => each other (List.mem_cons_of_mem _ hother)
    rw [List.map_cons, List.mapM_cons, hitem, hitems]
    rfl

/-- How a type is written and read. What fits comes back as it was. -/
structure Codec (α : Type) where
  write : α → Value
  read : Value → Option α
  Fits : α → Prop
  solid : ∀ a, write a ≠ .null
  written : ∀ a, Written (write a)
  read_write : ∀ {a}, Fits a → read (write a) = some a

namespace Codec

def string : Codec String where
  write text := .string text
  read
    | .string text => some text
    | _ => none
  Fits _ := True
  solid _ := nofun
  written := .string
  read_write _ := rfl

def bool : Codec Bool where
  write flag := .bool flag
  read
    | .bool flag => some flag
    | _ => none
  Fits _ := True
  solid _ := nofun
  written := .bool
  read_write _ := rfl

/-- An `i64`. `serde_json` reads `-0` as a float. -/
def i64 : Codec Int where
  write n := Authn.Jwt.integer n
  read
    | .number text => if text = "-0" then none
        else Authn.SecureCookie.parseI64 (SecretBox.asBytes text)
    | _ => none
  Fits n := Authn.SecureCookie.InI64 n
  solid _ := nofun
  written := .integer
  read_write := by
    intro n range
    have hascii : SecretBox.asBytes (Authn.Jwt.ascii (Decimal.text n)) = Decimal.text n :=
      Authn.Jwt.asBytes_ascii fun _ => Authn.Jwt.text_ascii
    have hzero : Authn.Jwt.ascii (Decimal.text n) ≠ "-0" := by
      intro heq
      have hread := Decimal.read_text n
      rw [← hascii, heq] at hread
      obtain rfl : n = 0 := (Option.some.inj (hread.symm.trans (by decide)))
      exact absurd heq (by decide)
    simp only [Authn.Jwt.integer, if_neg hzero, hascii, Authn.SecureCookie.parseI64_text range]

/-- `Base64Bytes`: the standard alphabet, padded. -/
def base64Bytes : Codec Bytes where
  write bytes := .string (Authn.Jwt.ascii (Base64.standard.encode true bytes))
  read
    | .string text => Base64.standard.decode (SecretBox.asBytes text)
    | _ => none
  Fits _ := True
  solid _ := nofun
  written _ := .string _
  read_write := by
    intro bytes _
    have hsymbol : ∀ n, Base64.standard.symbol n < 128 := by decide
    have hascii : ∀ byte ∈ Base64.standard.encode true bytes, byte < 128 := fun byte hbyte =>
      Base64.standard.encode_all (P := (· < 128)) hsymbol (by decide) hbyte
    simp only [Authn.Jwt.asBytes_ascii hascii, Base64.Alphabet.decode_encode]

def list {α : Type} (codec : Codec α) : Codec (List α) where
  write items := .array (items.map codec.write)
  read
    | .array items => items.mapM codec.read
    | _ => none
  Fits items := ∀ item ∈ items, codec.Fits item
  solid _ := nofun
  written items := by
    refine .array fun value hvalue => ?_
    obtain ⟨item, _, rfl⟩ := List.mem_map.mp hvalue
    exact codec.written item
  read_write := by
    intro items fits
    simpa using mapM_each (h := id) fun item hitem => codec.read_write (fits item hitem)

def entry {α : Type} (codec : Codec α) (entry : String × Value) : Option (String × α) :=
  (codec.read entry.2).map (entry.1, ·)

/-- A `BTreeMap`. The last of several entries of one key counts. -/
def map {α : Type} (codec : Codec α) : Codec (ExtTreeMap String α) where
  write entries := .object (entries.toList.map fun entry => (entry.1, codec.write entry.2))
  read
    | .object entries => (entries.mapM codec.entry).map fun list => ExtTreeMap.ofList list
    | _ => none
  Fits entries := ∀ entry ∈ entries.toList, codec.Fits entry.2
  solid _ := nofun
  written entries := by
    refine .object fun entry hentry => ?_
    obtain ⟨row, _, rfl⟩ := List.mem_map.mp hentry
    exact codec.written row.2
  read_write := by
    intro entries fits
    have hentries : (entries.toList.map fun entry => (entry.1, codec.write entry.2)).mapM
        codec.entry = some (entries.toList.map id) := by
      refine mapM_each fun entry hentry => ?_
      rw [Codec.entry, codec.read_write (fits entry hentry)]
      rfl
    simp only [hentries, List.map_id, Option.map_some, OrderedMap.ofList_toList]

end Codec

/-! Structs. -/

/-- A field of a struct that is written, with its name. A field without a value is left out. -/
abbrev Cell := String × Option Value

def WrittenCell (value : Option Value) : Prop := ∀ json ∈ value, Written json

def present (cells : List Cell) : List (String × Value) :=
  cells.filterMap fun cell => cell.2.map (cell.1, ·)

/-- What an object holds under a name, which it may hold once. -/
def field (entries : List (String × Value)) (name : String) : Option (Option Value) :=
  match entries.filter (·.1 == name) with
  | [] => some none
  | [entry] => some (some entry.2)
  | _ => none

/-- The fields of a struct, in the order of its declaration. -/
def fields (names : List String) : Value → Option (List (Option Value))
  | .object entries => names.mapM (field entries)
  | .array items =>
      if items.length ≤ names.length then
        some (items.map some ++ List.replicate (names.length - items.length) none)
      else none
  | _ => none

theorem present_append (cells more : List Cell) :
    present (cells ++ more) = present cells ++ present more :=
  List.filterMap_append

theorem written_present {cells : List Cell}
    (each : ∀ cell ∈ cells, WrittenCell cell.2) : Written (.object (present cells)) := by
  refine .object fun entry hentry => ?_
  obtain ⟨cell, hcell, hvalue⟩ := List.mem_filterMap.mp hentry
  obtain ⟨value, hsome, rfl⟩ := Option.map_eq_some_iff.mp hvalue
  exact each cell hcell value hsome

theorem filter_present {cells : List Cell} {name : String} (h : name ∉ cells.map Prod.fst) :
    (present cells).filter (·.1 == name) = [] := by
  rw [List.filter_eq_nil_iff]
  intro entry hentry
  obtain ⟨cell, hcell, hvalue⟩ := List.mem_filterMap.mp hentry
  obtain ⟨value, _, rfl⟩ := Option.map_eq_some_iff.mp hvalue
  have hne : cell.1 ≠ name := fun heq => h (heq ▸ List.mem_map_of_mem hcell)
  simpa using hne

theorem field_present {cells : List Cell} (distinct : (cells.map Prod.fst).Nodup) {cell : Cell}
    (h : cell ∈ cells) : field (present cells) cell.1 = some cell.2 := by
  obtain ⟨before, after, rfl⟩ := List.append_of_mem h
  rw [List.map_append, List.map_cons, List.nodup_append] at distinct
  obtain ⟨_, hafter, hbefore⟩ := distinct
  have hbefore : cell.1 ∉ before.map Prod.fst :=
    fun hmem => hbefore _ hmem _ List.mem_cons_self rfl
  have hafter : cell.1 ∉ after.map Prod.fst := (List.nodup_cons.mp hafter).1
  have hsplit : (present (before ++ cell :: after)).filter (·.1 == cell.1) =
      (present [cell]).filter (·.1 == cell.1) := by
    rw [← List.singleton_append, present_append, present_append, List.filter_append,
      List.filter_append, filter_present hbefore, filter_present hafter, List.nil_append,
      List.append_nil]
  rw [field, hsplit]
  obtain ⟨name, value⟩ := cell
  cases value <;> simp [present]

/-- A reader takes back the fields that were written. -/
theorem fields_present {cells : List Cell} (distinct : (cells.map Prod.fst).Nodup) :
    fields (cells.map Prod.fst) (.object (present cells)) = some (cells.map Prod.snd) :=
  mapM_each fun _ hcell => field_present distinct hcell

namespace Codec
variable {α : Type} (codec : Codec α)

/-- A field that has to be there. -/
def required (cell : Option Value) : Option α := cell.bind codec.read

/-- A field that may be absent, or `null`. -/
def optional : Option Value → Option (Option α)
  | none | some .null => some none
  | some value => (codec.read value).map some

theorem required_write {a : α} (fits : codec.Fits a) : codec.required (some (codec.write a)) = some a :=
  codec.read_write fits

theorem optional_some {value : Value} (solid : value ≠ .null) :
    codec.optional (some value) = (codec.read value).map some := by
  cases value with
  | null => exact absurd rfl solid
  | _ => rfl

theorem optional_write {a : Option α} (fits : ∀ value ∈ a, codec.Fits value) :
    codec.optional (a.map codec.write) = some a := by
  cases a with
  | none => rfl
  | some value =>
    rw [Option.map_some, codec.optional_some (codec.solid value),
      codec.read_write (fits value rfl)]
    rfl

/-- A field that is always written. -/
@[simp] theorem written_some (a : α) : WrittenCell (some (codec.write a)) := by
  rintro _ ⟨⟩
  exact codec.written a

/-- A field that is written when it is there. -/
@[simp] theorem written_map (a : Option α) : WrittenCell (a.map codec.write) := by
  intro value hvalue
  obtain ⟨a, _, rfl⟩ := Option.mem_map.mp hvalue
  exact codec.written a

/-- The codec of a struct, from what its derived writer and reader do with the fields. -/
def struct (names : List String) (cells : α → List Cell) (build : List (Option Value) → Option α)
    (Fits : α → Prop) (distinct : names.Nodup) (named : ∀ a, (cells a).map Prod.fst = names)
    (each : ∀ a, ∀ cell ∈ cells a, WrittenCell cell.2)
    (builds : ∀ {a}, Fits a → build ((cells a).map Prod.snd) = some a) : Codec α where
  write a := .object (present (cells a))
  read value := (fields names value).bind build
  Fits := Fits
  solid _ := nofun
  written a := written_present (each a)
  read_write := by
    intro a fits
    have hfields := @fields_present (cells a) ((named a).symm ▸ distinct)
    rw [named a] at hfields
    rw [hfields, Option.bind_some, builds fits]

end Codec

/-! The models. -/

/-- Body of `PUT /auth/users/{userId}/friendly_name`. -/
structure FriendlyNameUpdate where
  friendlyName : String
  deriving DecidableEq, Repr

structure ErrorBody where
  message : String
  deriving DecidableEq, Repr

open Codec Authn.SecureCookie

@[simp] theorem string_required (text : String) :
    string.required (some (string.write text)) = some text := rfl

@[simp] theorem string_optional (text : Option String) :
    string.optional (text.map string.write) = some text :=
  string.optional_write fun _ _ => trivial

@[simp] theorem bool_required (flag : Bool) : bool.required (some (bool.write flag)) = some flag := rfl

@[simp] theorem bool_optional (flag : Option Bool) :
    bool.optional (flag.map bool.write) = some flag :=
  bool.optional_write fun _ _ => trivial

@[simp] theorem base64Bytes_optional (bytes : Option Bytes) :
    base64Bytes.optional (bytes.map base64Bytes.write) = some bytes :=
  base64Bytes.optional_write fun _ _ => trivial

/-- A password that is absent is written as `null`. -/
@[simp] theorem base64Bytes_nullable (bytes : Option Bytes) :
    base64Bytes.optional (some ((bytes.map base64Bytes.write).getD .null)) = some bytes := by
  cases bytes with
  | none => rfl
  | some bytes => exact base64Bytes_optional (some bytes)

def user : Codec User := struct
  ["username", "creation_date", "friendly_name", "email", "source", "encryptedPassword",
    "external_id"]
  (fun user => [("username", some (string.write user.username)),
    ("creation_date", some (i64.write user.creationDate)),
    ("friendly_name", user.friendlyName.map string.write),
    ("email", user.email.map string.write),
    ("source", user.source.map string.write),
    ("encryptedPassword", some ((user.encryptedPassword.map base64Bytes.write).getD .null)),
    ("external_id", user.externalId.map string.write)])
  (fun
    | [username, creationDate, friendlyName, email, source, encryptedPassword, externalId] => do
        return {
          username := ← string.required username
          creationDate := ← i64.required creationDate
          friendlyName := ← string.optional friendlyName
          email := ← string.optional email
          source := ← string.optional source
          encryptedPassword := ← base64Bytes.optional encryptedPassword
          externalId := ← string.optional externalId }
    | _ => none)
  (fun user => InI64 user.creationDate)
  (by decide) (fun _ => rfl) (by
    intro user
    have hpassword : WrittenCell
        (some ((user.encryptedPassword.map base64Bytes.write).getD .null)) := by
      rintro _ ⟨⟩
      cases user.encryptedPassword with
      | none => exact .null
      | some bytes => exact base64Bytes.written bytes
    simp [hpassword])
  (by
    intro user range
    simp [i64.required_write range])

def userCreation : Codec UserCreation := struct
  ["username", "email", "friendlyName", "source", "encryptedPassword", "external_id", "invite"]
  (fun body => [("username", some (string.write body.username)),
    ("email", body.email.map string.write),
    ("friendlyName", body.friendlyName.map string.write),
    ("source", body.source.map string.write),
    ("encryptedPassword", body.encryptedPassword.map base64Bytes.write),
    ("external_id", body.externalId.map string.write),
    ("invite", body.invite.map bool.write)])
  (fun
    | [username, email, friendlyName, source, encryptedPassword, externalId, invite] => do
        return {
          username := ← string.required username
          email := ← string.optional email
          friendlyName := ← string.optional friendlyName
          source := ← string.optional source
          encryptedPassword := ← base64Bytes.optional encryptedPassword
          externalId := ← string.optional externalId
          invite := ← bool.optional invite }
    | _ => none)
  (fun _ => True)
  (by decide) (fun _ => rfl) (by simp)
  (by simp)

def friendlyNameUpdate : Codec FriendlyNameUpdate := struct
  ["friendly_name"]
  (fun body => [("friendly_name", some (string.write body.friendlyName))])
  (fun
    | [friendlyName] => do return ⟨← string.required friendlyName⟩
    | _ => none)
  (fun _ => True)
  (by decide) (fun _ => rfl) (by simp)
  (by simp)

def group : Codec Group := struct
  ["id", "name", "description", "creation_date"]
  (fun group => [("id", group.id.map string.write), ("name", some (string.write group.name)),
    ("description", group.description.map string.write),
    ("creation_date", some (i64.write group.creationDate))])
  (fun
    | [id, name, description, creationDate] => do
        return {
          id := ← string.optional id
          name := ← string.required name
          description := ← string.optional description
          creationDate := ← i64.required creationDate }
    | _ => none)
  (fun group => InI64 group.creationDate)
  (by decide) (fun _ => rfl) (by simp)
  (by
    intro group range
    simp [i64.required_write range])

def groupCreation : Codec GroupCreation := struct
  ["id", "description"]
  (fun body => [("id", some (string.write body.id)),
    ("description", body.description.map string.write)])
  (fun
    | [id, description] => do
        return ⟨← string.required id, ← string.optional description⟩
    | _ => none)
  (fun _ => True)
  (by decide) (fun _ => rfl) (by simp)
  (by simp)

/-- A unit variant, as its name or as the only key of an object. -/
def effect : Codec Effect where
  write effect := effect.toJson
  read
    | .string "allow" | .object [("allow", .null)] => some .allow
    | .string "deny" | .object [("deny", .null)] => some .deny
    | _ => none
  Fits _ := True
  solid effect := by cases effect <;> nofun
  written effect := by cases effect <;> exact .string _
  read_write := by
    intro effect _
    cases effect <;> rfl

def condition : Codec Condition := (list string).map.map

theorem condition_fits (entries : Condition) : condition.Fits entries :=
  fun _ _ _ _ _ _ => trivial

def statement : Codec Statement := struct
  ["effect", "resource", "action", "condition"]
  (fun statement => [("effect", some (effect.write statement.effect)),
    ("resource", some (string.write statement.resource)),
    ("action", some ((list string).write statement.action)),
    ("condition", statement.condition.map condition.write)])
  (fun
    | [effect, resource, action, condition] => do
        return {
          effect := ← Wire.effect.required effect
          resource := ← string.required resource
          action := ← (list string).required action
          condition := ← Wire.condition.optional condition }
    | _ => none)
  (fun _ => True)
  (by decide) (fun _ => rfl) (by simp)
  (by
    intro statement _
    have heffect := effect.required_write (a := statement.effect) trivial
    have haction := (list string).required_write (a := statement.action) fun _ _ => trivial
    have hcondition := condition.optional_write (a := statement.condition) fun _ _ =>
      condition_fits _
    simp [heffect, haction, hcondition])

/-- A statement is written as the comparison of policies writes it. -/
theorem statement_write (statement : Statement) :
    Wire.statement.write statement = statement.toJson := by
  obtain ⟨effect, resource, action, condition⟩ := statement
  cases condition <;> rfl

def policy : Codec Policy := struct
  ["name", "creation_date", "statement", "acl"]
  (fun policy => [("name", some (string.write policy.name)),
    ("creation_date", policy.creationDate.map i64.write),
    ("statement", some ((list statement).write policy.statement)),
    ("acl", policy.acl.map string.write)])
  (fun
    | [name, creationDate, statement, acl] => do
        return {
          name := ← string.required name
          creationDate := ← i64.optional creationDate
          statement := ← (list Wire.statement).required statement
          acl := ← string.optional acl }
    | _ => none)
  (fun policy => ∀ seconds ∈ policy.creationDate, InI64 seconds)
  (by decide) (fun _ => rfl) (by simp)
  (by
    intro policy range
    have hstatement := (list statement).required_write (a := policy.statement) fun _ _ => trivial
    simp [i64.optional_write range, hstatement])

def credentials : Codec Credentials := struct
  ["access_key_id", "creation_date"]
  (fun credentials => [("access_key_id", some (string.write credentials.accessKeyId)),
    ("creation_date", some (i64.write credentials.creationDate))])
  (fun
    | [accessKeyId, creationDate] => do
        return ⟨← string.required accessKeyId, ← i64.required creationDate⟩
    | _ => none)
  (fun credentials => InI64 credentials.creationDate)
  (by decide) (fun _ => rfl) (by simp)
  (by
    intro credentials range
    simp [i64.required_write range])

def credentialsWithSecret : Codec CredentialsWithSecret := struct
  ["access_key_id", "secret_access_key", "creation_date", "user_id", "user_name"]
  (fun credentials => [("access_key_id", some (string.write credentials.accessKeyId)),
    ("secret_access_key", some (string.write credentials.secretAccessKey)),
    ("creation_date", some (i64.write credentials.creationDate)),
    ("user_id", some (i64.write credentials.userId)),
    ("user_name", credentials.userName.map string.write)])
  (fun
    | [accessKeyId, secretAccessKey, creationDate, userId, userName] => do
        return {
          accessKeyId := ← string.required accessKeyId
          secretAccessKey := ← string.required secretAccessKey
          creationDate := ← i64.required creationDate
          userId := ← i64.required userId
          userName := ← string.optional userName }
    | _ => none)
  (fun credentials => InI64 credentials.creationDate ∧ InI64 credentials.userId)
  (by decide) (fun _ => rfl) (by simp)
  (by
    intro credentials range
    simp [i64.required_write range.1, i64.required_write range.2])

def externalPrincipal : Codec ExternalPrincipal := struct
  ["user_id", "id"]
  (fun principal => [("user_id", some (string.write principal.userId)),
    ("id", some (string.write principal.id))])
  (fun
    | [userId, id] => do return ⟨← string.required userId, ← string.required id⟩
    | _ => none)
  (fun _ => True)
  (by decide) (fun _ => rfl) (by simp)
  (by simp)

def versionConfig : Codec VersionConfig := struct
  ["version"]
  (fun config => [("version", some (string.write config.version))])
  (fun
    | [version] => do return ⟨← string.required version⟩
    | _ => none)
  (fun _ => True)
  (by decide) (fun _ => rfl) (by simp)
  (by simp)

def errorBody : Codec ErrorBody := struct
  ["message"]
  (fun body => [("message", some (string.write body.message))])
  (fun
    | [message] => do return ⟨← string.required message⟩
    | _ => none)
  (fun _ => True)
  (by decide) (fun _ => rfl) (by simp)
  (by simp)

def claimTokenId : Codec ClaimTokenId := struct
  ["token_id", "expires_at"]
  (fun body => [("token_id", some (string.write body.tokenId)),
    ("expires_at", some (i64.write body.expiresAt))])
  (fun
    | [tokenId, expiresAt] => do
        return ⟨← string.required tokenId, ← i64.required expiresAt⟩
    | _ => none)
  (fun body => InI64 body.expiresAt)
  (by decide) (fun _ => rfl) (by simp)
  (by
    intro body range
    simp [i64.required_write range])

def pagination : Codec Pagination := struct
  ["has_more", "next_offset", "results", "max_per_page"]
  (fun page => [("has_more", some (bool.write page.hasMore)),
    ("next_offset", some (string.write page.nextOffset)),
    ("results", some (i64.write page.results)),
    ("max_per_page", some (i64.write page.maxPerPage))])
  (fun
    | [hasMore, nextOffset, results, maxPerPage] => do
        return {
          hasMore := ← bool.required hasMore
          nextOffset := ← string.required nextOffset
          results := ← i64.required results
          maxPerPage := ← i64.required maxPerPage }
    | _ => none)
  (fun page => InI64 page.results ∧ InI64 page.maxPerPage)
  (by decide) (fun _ => rfl) (by simp)
  (by
    intro page range
    simp [i64.required_write range.1, i64.required_write range.2])

def listResponse {α : Type} (codec : Codec α) : Codec (ListResponse α) := struct
  ["pagination", "results"]
  (fun response => [("pagination", some (pagination.write response.pagination)),
    ("results", some ((list codec).write response.results))])
  (fun
    | [page, results] => do
        return ⟨← pagination.required page, ← (list codec).required results⟩
    | _ => none)
  (fun response => pagination.Fits response.pagination ∧ (list codec).Fits response.results)
  (by decide) (fun _ => rfl) (by simp)
  (by
    intro response fits
    simp [pagination.required_write fits.1, (list codec).required_write fits.2])

end LakeFsAuth.Core.Wire

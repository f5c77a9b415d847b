/-
  WorkforceRisk.Persistence.Values — what rows and messages are made of.

  A uuid is a number: rows are compared by it, and drawn ids (`uuid.uuid4()`) reach the
  model as arguments of the operation that draws them, so a collision is a primary key
  violation and not ruled out. An aware datetime is its instant in microseconds; clocks
  (`datetime.now(UTC)`) are arguments too. `Json` is the value of a JSON column or
  message, an object being its members in the order they are written.

  SHA-256 is a parameter (`Sha256`), one function for each way the code serialises what
  it hashes; nothing here assumes it injective. `Sha256.transparent` hashes a value to
  its own text, and only closed traces use it.
-/

namespace WorkforceRisk.Persistence

abbrev Uuid := Nat

def uuidText (u : Uuid) : String := toString u

abbrev DateTime := Int

/-- A `timedelta`. -/
abbrev Duration := Int

def minutes (n : Int) : Duration := n * 60000000

def hours (n : Int) : Duration := n * 3600000000

inductive Environment where
  | dev
  | prod
  | test
  deriving DecidableEq, Repr

def Environment.value : Environment → String
  | .dev => "dev"
  | .prod => "prod"
  | .test => "test"

/-- An exception the code raises, with its message, or the database's own. A model's
    validation error has the field it is about, which is empty for the whole model. -/
inductive Error where
  | valueError (message : String)
  | validationError (field message : String)
  | permissionError (message : String)
  | runtimeError (message : String)
  | assertionError
  | integrityError (table : String)
  deriving DecidableEq, Repr

/-- An exception that the code raises, or one that an expression of it does. -/
inductive Raised where
  | error (error : Error)
  | keyError (key : String)
  | overflowError (message : String)
  deriving DecidableEq, Repr

/-- The database's answer to an insert. -/
def inserted {α : Type} (table : String) : Option α → Except Error α
  | some t => .ok t
  | none => .error (.integrityError table)

theorem inserted_ok {α : Type} {table : String} {o : Option α} {t : α} : inserted table o = .ok t ↔ o = some t := by
  cases o with
  | none => exact ⟨fun h => (nomatch h), fun h => (nomatch h)⟩
  | some a => exact ⟨fun h => by cases h; rfl, fun h => by cases h; rfl⟩

/-! ## Jira keys -/

def isProjectKeyChars : List Char → Bool
  | [] => false
  | c :: cs => c.isUpper && decide (1 ≤ cs.length ∧ cs.length ≤ 19) && cs.all fun c => c.isUpper || c.isDigit

/-- The pattern `^[A-Z][A-Z0-9]{1,19}$`. -/
def isProjectKey (s : String) : Bool := isProjectKeyChars s.toList

/-- The pattern `^[A-Z][A-Z0-9]{1,19}-[1-9][0-9]*$`. -/
def isIssueKey (s : String) : Bool :=
  isProjectKeyChars (s.toList.takeWhile (· != '-')) &&
    match s.toList.dropWhile (· != '-') with
    | '-' :: d :: ds => d.isDigit && d != '0' && ds.all Char.isDigit
    | _ => false

/-! ## JSON and digests -/

inductive Json where
  | null
  | bool (b : Bool)
  | num (n : Rat)
  | str (s : String)
  | arr (xs : List Json)
  | obj (members : List (String × Json))

namespace Json

mutual

def beq : Json → Json → Bool
  | null, null => true
  | bool a, bool b => a == b
  | num a, num b => a == b
  | str a, str b => a == b
  | arr xs, arr ys => beqItems xs ys
  | obj xs, obj ys => beqMembers xs ys
  | _, _ => false

def beqItems : List Json → List Json → Bool
  | [], [] => true
  | x :: xs, y :: ys => x.beq y && beqItems xs ys
  | _, _ => false

def beqMembers : List (String × Json) → List (String × Json) → Bool
  | [], [] => true
  | (k, x) :: xs, (l, y) :: ys => (k == l) && (x.beq y && beqMembers xs ys)
  | _, _ => false

end

mutual

theorem beq_iff : ∀ a b : Json, a.beq b = true ↔ a = b
  | null, b => by cases b <;> simp [beq]
  | bool a, b => by cases b <;> simp [beq]
  | num a, b => by cases b <;> simp [beq]
  | str a, b => by cases b <;> simp [beq]
  | arr xs, b => by
    cases b with
    | arr ys => simp [beq, beqItems_iff xs ys]
    | _ => simp [beq]
  | obj xs, b => by
    cases b with
    | obj ys => simp [beq, beqMembers_iff xs ys]
    | _ => simp [beq]

theorem beqItems_iff : ∀ xs ys : List Json, beqItems xs ys = true ↔ xs = ys
  | [], ys => by cases ys <;> simp [beqItems]
  | x :: xs, ys => by
    cases ys with
    | nil => simp [beqItems]
    | cons y ys => simp [beqItems, beq_iff x y, beqItems_iff xs ys]

theorem beqMembers_iff : ∀ xs ys : List (String × Json), beqMembers xs ys = true ↔ xs = ys
  | [], ys => by cases ys <;> simp [beqMembers]
  | (k, x) :: xs, ys => by
    cases ys with
    | nil => simp [beqMembers]
    | cons y ys => simp [beqMembers, beq_iff x y.2, beqMembers_iff xs ys, Prod.ext_iff, and_assoc]

end

end Json

instance : DecidableEq Json := fun a b => decidable_of_iff _ (Json.beq_iff a b)

/-- `mapping.get(key)`. -/
def member (mapping : List (String × Json)) (key : String) : Option Json :=
  (mapping.find? (·.1 == key)).map (·.2)

def Json.opt {α : Type} (json : α → Json) : Option α → Json
  | some a => json a
  | none => .null

def Json.strs (xs : List String) : Json := .arr (xs.map .str)

class Sha256 where
  /-- The digest of `json.dumps(value, sort_keys=True, separators=(",", ":"))`. -/
  canonical : Json → String
  /-- The digest of `json.dumps(value, sort_keys=True, default=str)`. -/
  material : Json → String
  /-- The digest of the texts of `model_dump_json()`, one after the other. -/
  dumped : List Json → String
  /-- The digest of a text. -/
  text : String → String

mutual

def Json.text : Json → String
  | .null => "null"
  | .bool b => if b then "true" else "false"
  | .num n => toString n.num ++ "/" ++ toString n.den
  | .str s => "'" ++ s ++ "'"
  | .arr xs => "[" ++ Json.textItems xs ++ "]"
  | .obj members => "(" ++ Json.textMembers members ++ ")"

def Json.textItems : List Json → String
  | [] => ""
  | x :: xs => x.text ++ "," ++ Json.textItems xs

def Json.textMembers : List (String × Json) → String
  | [] => ""
  | (key, x) :: members => key ++ ":" ++ x.text ++ "," ++ Json.textMembers members

end

/-- Every value its own digest. -/
@[reducible] def Sha256.transparent : Sha256 := ⟨Json.text, Json.text, Json.textItems, id⟩

end WorkforceRisk.Persistence

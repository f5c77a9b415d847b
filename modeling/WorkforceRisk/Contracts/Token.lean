/-
  WorkforceRisk.Contracts.Token — the token of an internal call, as it is signed and read
  (packages/contracts/src/workforce_contracts/auth.py).

  A token is a JSON text in url-safe base64, a dot, and the base64 of its HMAC. It is any
  Python string, lone surrogates included; so are a correlation id and the texts of a
  principal, which its model takes as they are. An expiry is a whole second, the
  truncation of a double.

  What stands for the rest of the platform is a parameter (`Platform`): the HMAC, and what
  no signed token reaches (`json.loads` of bytes that are not ASCII, a timestamp that is a
  float, one past the years of `gmtime`).

  Proved (`token_law_iff`): a valid token returns what was signed exactly when its expiry,
  cut to a whole second, has not passed and in none of its texts a high surrogate comes
  directly before a low one, for the two are read back as one character; any other token
  whose signature was made by signing is refused with the authorization error exactly when
  it has no surrogate before its dot and only ASCII behind. What is accepted passes the
  checks of `verify` (`verify_checked`).
-/

import Mathlib.Algebra.Order.Ring.Rat
import WorkforceRisk.Contracts.Principal
import WorkforceRisk.Lib.Base64
import WorkforceRisk.Lib.JsonText

namespace WorkforceRisk.Contracts

open Persistence Lib.Base64 Lib.JsonText

/-- An exception: the authorization error, those `verify` turns into it (a validation or
    encoding error is a `ValueError`), or any other. -/
inductive Raised where
  | authorization (message : String)
  | valueError
  | keyError
  | typeError
  | other

/-- The clause `except (KeyError, TypeError, ValueError, json.JSONDecodeError)`. -/
def Raised.isCaught : Raised → Bool
  | .valueError | .keyError | .typeError => true
  | _ => false

class Platform where
  /-- `hmac.new(secret, text.encode(), hashlib.sha256).digest()`. -/
  hmac : (secret : List UInt8) → (text : List Char) → List UInt8
  /-- `json.loads` of bytes of which one is null or not ASCII. -/
  loads : List UInt8 → Except Raised JsonValue
  /-- `datetime.fromtimestamp` of a float. -/
  fromFloat : (literal : List Char) → Except Raised DateTime
  /-- What `datetime.fromtimestamp` raises past the years of `gmtime`. -/
  beyond : Int → Raised

/-- An authenticated principal, its texts any Python strings. -/
structure TextPrincipal where
  actorId : Text
  displayLabel : Text
  role : ApplicationRole
  environment : Environment
  projectScopes : List Text

/-- A verified context with all its fields. -/
structure SignedContext extends TextPrincipal where
  correlationId : Text
  expiresAt : DateTime

/-! ## Times -/

def minSecond : Int := -62135596800

def maxSecond : Int := 253402300799

/-- A number of seconds and a fraction, of which the double is the next whole second. -/
def RoundsUp (seconds micros : Nat) : Prop :=
  micros ≠ 0 ∧ (1000000 - micros) * 2 ^ (53 - Nat.log2 seconds) ≤ 1000000

instance (seconds micros : Nat) : Decidable (RoundsUp seconds micros) := inferInstanceAs (Decidable (_ ∧ _))

/-- The whole seconds of a number of microseconds, taken through a double. -/
def wholeOf (micros : Nat) : Nat :=
  if RoundsUp (micros / 1000000) (micros % 1000000) then micros / 1000000 + 1 else micros / 1000000

/-- `int(moment.timestamp())`. -/
def wholeSeconds (moment : Int) : Int :=
  if moment < 0 then -(wholeOf moment.natAbs : Int) else wholeOf moment.natAbs

theorem RoundsUp.mono {seconds micros micros' : Nat} (h : RoundsUp seconds micros) (hle : micros ≤ micros') :
    RoundsUp seconds micros' :=
  ⟨by have := h.1; omega, le_trans (Nat.mul_le_mul_right _ (by omega)) h.2⟩

/-- The whole seconds are those of anything between a time and them. -/
theorem wholeOf_above {m y : Nat} (hm : m ≤ y) (hy : y ≤ wholeOf m * 1000000) : wholeOf y = wholeOf m := by
  by_cases hround : RoundsUp (m / 1000000) (m % 1000000)
  · have hw : wholeOf m = m / 1000000 + 1 := if_pos hround
    rw [hw] at hy ⊢
    by_cases hend : y = (m / 1000000 + 1) * 1000000
    · have hmod : y % 1000000 = 0 := by omega
      have hdiv : y / 1000000 = m / 1000000 + 1 := by omega
      rw [wholeOf, hmod, hdiv, if_neg fun h => h.1 rfl]
    · have hdiv : y / 1000000 = m / 1000000 := by omega
      rw [wholeOf, hdiv, if_pos (hround.mono (by omega))]
  · have hw : wholeOf m = m / 1000000 := if_neg hround
    rw [hw] at hy
    rw [show y = m by omega]

theorem wholeOf_below {m y : Nat} (hy : wholeOf m * 1000000 ≤ y) (hm : y ≤ m) : wholeOf y = wholeOf m := by
  by_cases hround : RoundsUp (m / 1000000) (m % 1000000)
  · have hw : wholeOf m = m / 1000000 + 1 := if_pos hround
    omega
  · have hw : wholeOf m = m / 1000000 := if_neg hround
    rw [hw] at hy ⊢
    have hdiv : y / 1000000 = m / 1000000 := by omega
    rw [wholeOf, hdiv, if_neg fun h => hround (h.mono (by omega))]

theorem wholeSeconds_between {m y : Int} (hm : m ≤ y) (hy : y ≤ wholeSeconds m * 1000000) :
    wholeSeconds y = wholeSeconds m := by
  unfold wholeSeconds at hy ⊢
  by_cases hneg : m < 0
  · rw [if_pos hneg] at hy ⊢
    have hy0 : y ≤ 0 := by omega
    have hw := @wholeOf_below m.natAbs y.natAbs (by omega) (by omega)
    by_cases hy' : y < 0
    · rw [if_pos hy', hw]
    · have hzero : wholeOf m.natAbs = 0 := by
        rw [← hw, show y.natAbs = 0 by omega]
        rfl
      rw [if_neg hy', hw, hzero]
      rfl
  · rw [if_neg hneg] at hy ⊢
    rw [if_neg (by omega), @wholeOf_above m.natAbs y.natAbs (by omega) (by omega)]

theorem wholeOf_le {m seconds : Nat} (h : m ≤ seconds * 1000000) : wholeOf m ≤ seconds := by
  unfold wholeOf
  split
  · rename_i hround
    have := hround.1
    omega
  · omega

/-- The expiry of a token that can be signed is in the years of a `datetime` or the first
    second after them. -/
theorem wholeSeconds_range {m : Int} (hmin : minSecond * 1000000 ≤ m) (hmax : m < (maxSecond + 1) * 1000000) :
    minSecond ≤ wholeSeconds m ∧ wholeSeconds m ≤ maxSecond + 1 := by
  unfold wholeSeconds minSecond maxSecond at *
  split
  · have := @wholeOf_le m.natAbs 62135596800 (by omega)
    omega
  · have := @wholeOf_le m.natAbs 253402300800 (by omega)
    omega

/-! ## The parts of a token -/

def byteOf (c : Char) : UInt8 := UInt8.ofNat c.toNat

def charOf (b : UInt8) : Char := Char.ofNat b.toNat

/-- `_encode`. -/
def encodePart (bytes : List UInt8) : List Char := stripped (encode bytes)

/-- `_decode`. -/
def decodePart (part : List Char) : Except Raised (List UInt8) :=
  if part.all (·.toNat < 128) then
    match decode (padded part) with
    | some bytes => .ok bytes
    | none => .error .valueError
  else .error .valueError

def text (s : String) : Text := scalars s.toList

/-- The members of the payload, sorted by their keys. -/
def payloadMembers (principal : TextPrincipal) (correlationId : Text) (expiresAt : Int) :
    List (Text × JsonValue) :=
  [(text "actor_id", .str principal.actorId), (text "correlation_id", .str correlationId),
    (text "display_label", .str principal.displayLabel),
    (text "environment", .str (text principal.environment.value)), (text "expires_at", .int expiresAt),
    (text "project_scopes", .list (principal.projectScopes.map .str)),
    (text "role", .str (text principal.role.value))]

def payload (principal : TextPrincipal) (correlationId : Text) (expiresAt : Int) : JsonValue :=
  .dict (payloadMembers principal correlationId expiresAt)

/-- The member of an object that was read last. -/
def memberOf (members : List (Text × JsonValue)) (key : String) : Option JsonValue :=
  (members.reverse.find? fun m => m.1 == text key).map (·.2)

/-- A field of a model that is a string, of whatever code points. -/
def strOf : Option JsonValue → Except Raised Text
  | some (.str t) => .ok t
  | _ => .error .valueError

/-- What a text names, if it is a text of characters. -/
def named {α : Type} (of : String → Option α) (t : Text) : Option α :=
  (characters t).bind fun cs => of (String.ofList cs)

/-- A field of a model that is a tuple of strings. -/
def strsOf : Option JsonValue → Except Raised (List Text)
  | some (.list items) => items.mapM fun item => strOf (some item)
  | _ => .error .valueError

def valueOr {α : Type} : Option α → Except Raised α
  | some a => .ok a
  | none => .error .valueError

def fieldNames : List String :=
  ["actor_id", "display_label", "role", "environment", "project_scopes", "correlation_id", "expires_at"]

/-- `VerifiedInternalContext.model_validate`, which forbids other members. -/
def validateContext (members : List (Text × JsonValue)) (expiresAt : DateTime) : Except Raised SignedContext := do
  if members.all fun m => fieldNames.any fun name => m.1 == text name then
    let actorId ← strOf (memberOf members "actor_id")
    let displayLabel ← strOf (memberOf members "display_label")
    let role ← valueOr (named roleOf (← strOf (memberOf members "role")))
    let environment ← valueOr (named environmentOf (← strOf (memberOf members "environment")))
    let projectScopes ← strsOf (memberOf members "project_scopes")
    let correlationId ← strOf (memberOf members "correlation_id")
    return { actorId, displayLabel, role, environment, projectScopes, correlationId, expiresAt }
  else .error .valueError

/-- What a caller expects of a token, and when it asks. -/
structure Expectations where
  environment : Environment
  project : Text
  roles : List ApplicationRole
  now : DateTime

/-- The checks of a context that was read. -/
def admitContext (context : SignedContext) (e : Expectations) : Except Raised SignedContext :=
  if context.expiresAt ≤ e.now then .error (.authorization "internal context is expired")
  else if context.environment ≠ e.environment then
    .error (.authorization "internal context environment mismatch")
  else if e.project ∉ context.projectScopes then .error (.authorization "internal context project mismatch")
  else if context.role ∉ e.roles then .error (.authorization "internal context role mismatch")
  else .ok context

def isAscii : CodePoint → Bool
  | .scalar c => c.toNat < 128
  | _ => false

def isDot (x : CodePoint) : Bool := x == .scalar '.'

/-- The part of a token before its dot, and the part behind. -/
def beforeDot (token : Text) : Text := token.takeWhile (!isDot ·)

def behindDot (token : Text) : Text := (token.dropWhile (!isDot ·)).tail

/-! ## Signing and verifying -/

structure InternalContextSigner where
  secret : List UInt8
  lifetime : Duration
  secret_length : 32 ≤ secret.length
  lifetime_pos : 0 < lifetime

section
variable [Platform]

/-- `datetime.fromtimestamp(seconds, UTC)` of an integer. -/
def fromSeconds (seconds : Int) : Except Raised DateTime :=
  if minSecond ≤ seconds ∧ seconds ≤ maxSecond then .ok (seconds * 1000000)
  else if seconds.natAbs ≤ 10 ^ 16 then .error .valueError
  else .error (Platform.beyond seconds)

def fromTimestamp : JsonValue → Except Raised DateTime
  | .int n => fromSeconds n
  | .bool b => fromSeconds (if b then 1 else 0)
  | .float literal => Platform.fromFloat literal
  | _ => .error .typeError

def loadsBytes (bytes : List UInt8) : Except Raised JsonValue :=
  if bytes.all fun b => decide (0 < b.toNat ∧ b.toNat < 128) then
    match loads (bytes.map charOf) with
    | some value => .ok value
    | none => .error .valueError
  else Platform.loads bytes

/-- The `try` block. -/
def readContext (encoded : List Char) : Except Raised SignedContext := do
  match ← loadsBytes (← decodePart encoded) with
  | .dict members => match memberOf members "expires_at" with
    | some value => validateContext members (← fromTimestamp value)
    | none => .error .keyError
  | _ => .error .typeError

namespace InternalContextSigner
variable (signer : InternalContextSigner)

def signature (encoded : List Char) : List Char := encodePart (Platform.hmac signer.secret encoded)

/-- A signed part and its signature. -/
def token (encoded : List Char) : List Char := encoded ++ '.' :: signer.signature encoded

/-- The part that is signed. -/
def encoded (principal : TextPrincipal) (correlationId : Text) (now : DateTime) : List Char :=
  encodePart ((dumps (payload principal correlationId (wholeSeconds (now + signer.lifetime)))).map byteOf)

/-- The sum of a time and a lifetime may be no time (`OverflowError`). -/
def sign (principal : TextPrincipal) (correlationId : Text) (now : DateTime) : Except Raised (List Char) :=
  if minSecond * 1000000 ≤ now + signer.lifetime ∧ now + signer.lifetime < (maxSecond + 1) * 1000000 then
    .ok (signer.token (signer.encoded principal correlationId now))
  else .error .other

/-- Encoding a surrogate raises a `ValueError`, comparing a text that is not ASCII a
    `TypeError`, and both outside the `try` block. -/
def verify (token : Option Text) (e : Expectations) : Except Raised SignedContext :=
  match token with
  | none => .error (.authorization "missing or malformed internal context")
  | some token =>
    if token.countP isDot ≠ 1 then .error (.authorization "missing or malformed internal context")
    else match characters (beforeDot token) with
      | none => .error .valueError
      | some encoded =>
        if (behindDot token).all isAscii then
          if behindDot token = scalars (signer.signature encoded) then
            match readContext encoded with
            | .ok context => admitContext context e
            | .error raised =>
              if raised.isCaught then .error (.authorization "malformed internal context claims") else .error raised
          else .error (.authorization "invalid internal context signature")
        else .error .typeError

end InternalContextSigner

end

/-! ## What is signed is read back -/

theorem charOf_byteOf {c : Char} (h : c.toNat < 256) : charOf (byteOf c) = c := by
  have : (UInt8.ofNat c.toNat).toNat = c.toNat := by
    rw [UInt8.toNat_ofNat']
    exact Nat.mod_eq_of_lt h
  rw [charOf, byteOf, this, Char.ofNat_toNat]

theorem decodePart_encodePart (bytes : List UInt8) : decodePart (encodePart bytes) = .ok bytes := by
  have hascii : (encodePart bytes).all (fun c => decide (c.toNat < 128)) = true := by
    rw [List.all_eq_true]
    intro c hc
    simpa using (stripped_alphabet hc).2.2
  rw [decodePart, if_pos hascii, encodePart, decode_padded_stripped]

theorem scopes_floatless (scopes : List Text) : itemsFloatless (scopes.map .str) = true := by
  induction scopes with
  | nil => rfl
  | cons scope scopes ih =>
    rw [List.map_cons, itemsFloatless, ih]
    rfl

@[simp] theorem join_text (s : String) : join (text s) = text s := join_scalars _

theorem scopes_joined (scopes : List Text) : joinedItems (scopes.map .str) = (scopes.map join).map .str := by
  induction scopes with
  | nil => rfl
  | cons scope scopes ih =>
    rw [List.map_cons, joinedItems, ih, JsonValue.joined]
    rfl

/-- The principal with the surrogate pairs of its texts joined. -/
def TextPrincipal.joined (principal : TextPrincipal) : TextPrincipal where
  actorId := join principal.actorId
  displayLabel := join principal.displayLabel
  role := principal.role
  environment := principal.environment
  projectScopes := principal.projectScopes.map join

theorem payload_floatless (principal : TextPrincipal) (correlationId : Text) (expiresAt : Int) :
    (payload principal correlationId expiresAt).isFloatless = true := by
  simp [payload, payloadMembers, JsonValue.isFloatless, membersFloatless, scopes_floatless]

theorem payload_joined (principal : TextPrincipal) (correlationId : Text) (expiresAt : Int) :
    (payload principal correlationId expiresAt).joined = payload principal.joined (join correlationId) expiresAt := by
  simp only [payload, payloadMembers, JsonValue.joined, joinedMembers, scopes_joined, join_text, TextPrincipal.joined]

theorem strsOf_scopes (scopes : List Text) : strsOf (some (.list (scopes.map .str))) = .ok scopes := by
  rw [strsOf]
  induction scopes with
  | nil => rfl
  | cons scope scopes ih =>
    rw [List.map_cons, List.mapM_cons, strOf, ih]
    rfl

theorem named_text {α : Type} (of : String → Option α) (s : String) : named of (text s) = of s := by
  rw [named, text, characters_scalars, Option.bind_some, String.ofList_toList]

/-- The context of a token. -/
def contextOf (principal : TextPrincipal) (correlationId : Text) (expiresAt : DateTime) : SignedContext :=
  { principal with correlationId, expiresAt }

/-- A verified context of characters, with its label. -/
def textsOf (context : VerifiedInternalContext) (displayLabel : Text) : SignedContext where
  actorId := text context.actorId
  displayLabel := displayLabel
  role := context.role
  environment := context.environment
  projectScopes := context.projectScopes.map text
  correlationId := text context.correlationId
  expiresAt := context.expiresAt

theorem validateContext_payload (principal : TextPrincipal) (correlationId : Text) (seconds : Int)
    (expiresAt : DateTime) : validateContext (payloadMembers principal correlationId seconds) expiresAt =
      .ok (contextOf principal correlationId expiresAt) := by
  have hnames : (payloadMembers principal correlationId seconds).all
      (fun m => fieldNames.any fun name => m.1 == text name) = true := by rfl
  have hactor : memberOf (payloadMembers principal correlationId seconds) "actor_id" =
    some (.str principal.actorId) := rfl
  have hlabel : memberOf (payloadMembers principal correlationId seconds) "display_label" =
    some (.str principal.displayLabel) := rfl
  have hrole : memberOf (payloadMembers principal correlationId seconds) "role" =
    some (.str (text principal.role.value)) := rfl
  have henvironment : memberOf (payloadMembers principal correlationId seconds) "environment" =
    some (.str (text principal.environment.value)) := rfl
  have hscopes : memberOf (payloadMembers principal correlationId seconds) "project_scopes" =
    some (.list (principal.projectScopes.map .str)) := rfl
  have hcorrelation : memberOf (payloadMembers principal correlationId seconds) "correlation_id" =
    some (.str correlationId) := rfl
  rw [validateContext, if_pos hnames, hactor, hlabel, hrole, henvironment, hscopes, hcorrelation]
  simp only [strOf, strsOf_scopes, named_text, roleOf_value, environmentOf_value, valueOr, bind, Except.bind]
  rfl

theorem isDot_scalar {c : Char} : isDot (.scalar c) = true ↔ c = '.' := by
  simp [isDot]

theorem no_dot {part : List Char} (h : '.' ∉ part) : ∀ x ∈ scalars part, isDot x = false := by
  intro x hx
  obtain ⟨c, hc, rfl⟩ := List.mem_map.mp hx
  rw [Bool.eq_false_iff, ne_eq, isDot_scalar]
  intro he
  exact h (he ▸ hc)

theorem beforeDot_append {part : List Char} (h : '.' ∉ part) (rest : Text) :
    beforeDot (scalars part ++ .scalar '.' :: rest) = scalars part := by
  rw [beforeDot, List.takeWhile_append_of_pos fun x hx => by rw [no_dot h x hx]; rfl,
    List.takeWhile_cons_of_neg (by decide), List.append_nil]

theorem behindDot_append {part : List Char} (h : '.' ∉ part) (rest : Text) :
    behindDot (scalars part ++ .scalar '.' :: rest) = rest := by
  rw [behindDot, List.dropWhile_append_of_pos fun x hx => by rw [no_dot h x hx]; rfl,
    List.dropWhile_cons_of_neg (by decide), List.tail_cons]

/-- A token with a dot is its two parts. -/
theorem token_parts {token : Text} (h : token.countP isDot ≠ 0) :
    token = beforeDot token ++ .scalar '.' :: behindDot token := by
  have hsplit := List.takeWhile_append_dropWhile (p := (!isDot ·)) (l := token)
  cases hdrop : token.dropWhile (!isDot ·) with
  | nil =>
    refine absurd (List.countP_eq_zero.mpr fun x hx => ?_) h
    have := List.dropWhile_eq_nil_iff.mp hdrop x hx
    simpa using this
  | cons x rest =>
    have hx : isDot x = true := by
      have := List.head?_dropWhile_not (!isDot ·) token
      rw [hdrop] at this
      simpa using this
    have hdot : x = .scalar '.' := by simpa [isDot] using hx
    rw [hdrop, hdot] at hsplit
    rw [beforeDot, behindDot, hdrop, List.tail_cons, hsplit]

theorem countP_parts {part : List Char} (h : '.' ∉ part) (rest : Text) :
    (scalars part ++ .scalar '.' :: rest).countP isDot = rest.countP isDot + 1 := by
  have hzero : (scalars part).countP isDot = 0 := List.countP_eq_zero.mpr fun x hx => by rw [no_dot h x hx]; decide
  rw [List.countP_append, hzero, List.countP_cons_of_pos (by decide), Nat.zero_add]

theorem scalars_ascii {cs : List Char} (h : ∀ c ∈ cs, c.toNat < 128) : (scalars cs).all isAscii = true := by
  rw [List.all_eq_true]
  intro x hx
  obtain ⟨c, hc, rfl⟩ := List.mem_map.mp hx
  exact decide_eq_true (h c hc)

/-- What the checks of a context come to. -/
theorem admitContext_cases (context : SignedContext) (e : Expectations) :
    (admitContext context e = .ok context ∧ e.now < context.expiresAt ∧ context.environment = e.environment ∧
      e.project ∈ context.projectScopes ∧ context.role ∈ e.roles) ∨
    ((∃ message, admitContext context e = .error (.authorization message)) ∧
      ¬ (e.now < context.expiresAt ∧ context.environment = e.environment ∧ e.project ∈ context.projectScopes ∧
        context.role ∈ e.roles)) := by
  rw [admitContext]
  split
  · rename_i hexpired
    exact .inr ⟨⟨_, rfl⟩, fun h => absurd h.1 (Int.not_lt.mpr hexpired)⟩
  rename_i hexpired
  split
  · rename_i henvironment
    exact .inr ⟨⟨_, rfl⟩, fun h => henvironment h.2.1⟩
  rename_i henvironment
  split
  · rename_i hproject
    exact .inr ⟨⟨_, rfl⟩, fun h => hproject h.2.2.1⟩
  rename_i hproject
  split
  · rename_i hrole
    exact .inr ⟨⟨_, rfl⟩, fun h => hrole h.2.2.2⟩
  rename_i hrole
  exact .inl ⟨rfl, Int.not_le.mp hexpired, not_not.mp henvironment, not_not.mp hproject, not_not.mp hrole⟩

section
variable [Platform]

theorem loadsBytes_dumps {v : JsonValue} (h : v.isFloatless = true) :
    loadsBytes ((dumps v).map byteOf) = .ok v.joined := by
  have hplain := dumps_plain v h
  have hback : ((dumps v).map byteOf).map charOf = dumps v := by
    rw [List.map_map]
    refine (List.map_congr_left fun c hc => ?_).trans (List.map_id _)
    exact charOf_byteOf (by have := (hplain c hc).2; omega)
  have hall : ((dumps v).map byteOf).all (fun b => decide (0 < b.toNat ∧ b.toNat < 128)) = true := by
    rw [List.all_eq_true]
    intro b hb
    obtain ⟨c, hc, rfl⟩ := List.mem_map.mp hb
    have hc := hplain c hc
    have hnat : (byteOf c).toNat = c.toNat := by
      rw [byteOf, UInt8.toNat_ofNat']
      exact Nat.mod_eq_of_lt (by have := hc.2; omega)
    rw [hnat]
    exact decide_eq_true hc
  rw [loadsBytes, if_pos hall, hback, loads_dumps h]

/-- A token that was signed is read as what was signed. -/
theorem readContext_payload (principal : TextPrincipal) (correlationId : Text) (seconds : Int) :
    readContext (encodePart ((dumps (payload principal correlationId seconds)).map byteOf)) =
      match fromSeconds seconds with
      | .error raised => .error raised
      | .ok expiresAt => .ok (contextOf principal.joined (join correlationId) expiresAt) := by
  have hexpires : memberOf (payloadMembers principal.joined (join correlationId) seconds) "expires_at" =
    some (.int seconds) := rfl
  rw [readContext, decodePart_encodePart]
  simp only [bind, Except.bind]
  rw [loadsBytes_dumps (payload_floatless _ _ _), payload_joined, payload]
  simp only [hexpires, fromTimestamp]
  cases fromSeconds seconds with
  | error raised => rfl
  | ok expiresAt => exact validateContext_payload principal.joined (join correlationId) seconds expiresAt

namespace InternalContextSigner
variable {signer : InternalContextSigner}

theorem signature_alphabet {part : List Char} {c : Char} (h : c ∈ signer.signature part) : IsAlphabet c :=
  stripped_alphabet h

omit [Platform] in
theorem encoded_alphabet {principal : TextPrincipal} {correlationId : Text} {now : DateTime} {c : Char}
    (h : c ∈ signer.encoded principal correlationId now) : IsAlphabet c :=
  stripped_alphabet h

omit [Platform] in
theorem encoded_no_dot {principal : TextPrincipal} {correlationId : Text} {now : DateTime} :
    '.' ∉ signer.encoded principal correlationId now :=
  fun h => (encoded_alphabet h).2.1 rfl

theorem signature_no_dot {part : List Char} : '.' ∉ signer.signature part :=
  fun h => (signature_alphabet h).2.1 rfl

theorem scalars_token (part : List Char) :
    scalars (signer.token part) = scalars part ++ .scalar '.' :: scalars (signer.signature part) := by
  simp [token, scalars]

theorem countP_token {part : List Char} (h : '.' ∉ part) : (scalars (signer.token part)).countP isDot = 1 := by
  have hzero : (scalars (signer.signature part)).countP isDot = 0 :=
    List.countP_eq_zero.mpr fun x hx => by rw [no_dot signature_no_dot x hx]; decide
  rw [scalars_token, countP_parts h, hzero]

theorem signature_ascii {part : List Char} : (scalars (signer.signature part)).all isAscii = true :=
  scalars_ascii fun _ hc => (signature_alphabet hc).2.2

/-- A token whose signature is right is read. -/
theorem verify_token {part : List Char} (h : '.' ∉ part) (e : Expectations) :
    signer.verify (some (scalars (signer.token part))) e =
      match readContext part with
      | .ok context => admitContext context e
      | .error raised =>
        if raised.isCaught then .error (.authorization "malformed internal context claims") else .error raised := by
  rw [verify]
  simp only [countP_token h, ne_eq, not_true_eq_false, if_false]
  rw [scalars_token, beforeDot_append h, behindDot_append h, characters_scalars]
  simp only [signature_ascii, if_true]

/-- What is accepted has the signature, and what was asked for. -/
theorem verify_ok_iff {token : Option Text} {e : Expectations} {context : SignedContext}
    (h : signer.verify token e = .ok context) :
    (∃ part, token = some (scalars (signer.token part)) ∧ readContext part = .ok context) ∧
      e.now < context.expiresAt ∧ context.environment = e.environment ∧ e.project ∈ context.projectScopes ∧
        context.role ∈ e.roles := by
  cases token with
  | none => cases h
  | some text =>
    rw [verify] at h
    split at h
    · cases h
    rename_i hcount
    split at h
    · cases h
    rename_i part hbefore
    split at h
    · split at h
      · rename_i hsignature
        split at h
        · rename_i found hread
          rcases admitContext_cases found e with hgood | hbad
          · obtain ⟨hsame, hlive⟩ := hgood
            rw [h] at hsame
            cases hsame
            refine ⟨⟨part, ?_, hread⟩, hlive⟩
            rw [scalars_token, ← characters_eq_some.mp hbefore, ← hsignature]
            exact congrArg some (token_parts (by omega))
          · obtain ⟨message, herror⟩ := hbad.1
            rw [h] at herror
            cases herror
        · split at h
          · cases h
          · cases h
      · cases h
    · cases h

omit [Platform] in
theorem text_injective : Function.Injective text := fun a b h => by
  have := congrArg characters h
  rw [text, text, characters_scalars, characters_scalars] at this
  exact String.toList_injective (Option.some.inj this)

/-- Where the texts are of characters, what is accepted passes the checks of a signed context. -/
theorem verify_checked {token : Option Text} {context : VerifiedInternalContext} {displayLabel : Text}
    {environment : Environment} {project : String} {roles : List ApplicationRole} {now : DateTime}
    (h : signer.verify token ⟨environment, text project, roles, now⟩ = .ok (textsOf context displayLabel)) :
    (∃ part, token = some (scalars (signer.token part)) ∧ readContext part = .ok (textsOf context displayLabel)) ∧
      Contracts.verify (some context) environment project roles now = .ok context := by
  obtain ⟨hsigned, hlive, henvironment, hproject, hrole⟩ := verify_ok_iff h
  obtain ⟨scope, hscope, hsame⟩ := List.mem_map.mp hproject
  exact ⟨hsigned, verify_ok.mpr ⟨rfl, hlive, henvironment, text_injective hsame ▸ hscope, hrole⟩⟩

/-! ## When a token is accepted -/

variable (signer)

/-- The caller expects this principal. -/
def IsExpected (principal : TextPrincipal) (e : Expectations) : Prop :=
  principal.environment = e.environment ∧ e.project ∈ principal.projectScopes ∧ principal.role ∈ e.roles

/-- The claims of the principal and the correlation id are returned. -/
def Returns (principal : TextPrincipal) (correlationId : Text) (result : Except Raised SignedContext) : Prop :=
  ∃ expiresAt, result = .ok (contextOf principal correlationId expiresAt)

/-- The token was signed by the time it is presented. -/
def Signed (token : Option Text) (now : DateTime) : Prop :=
  ∃ principal correlationId signedAt t, signedAt ≤ now ∧ signer.sign principal correlationId signedAt = .ok t ∧
    token = some (scalars t)

/-- A right signature is one that signing has made. -/
def Unforged (token : Option Text) (now : DateTime) : Prop :=
  ∀ part, '.' ∉ part → token = some (scalars (signer.token part)) → signer.Signed token now

/-- A token is valid from when it is signed until its lifetime is over. -/
def Valid (token : Option Text) (e : Expectations) : Prop :=
  ∃ principal correlationId signedAt t, signer.sign principal correlationId signedAt = .ok t ∧
    token = some (scalars t) ∧ signedAt ≤ e.now ∧ e.now < signedAt + signer.lifetime ∧ IsExpected principal e

/-- Nothing about the text makes `verify` raise anything else. -/
def Clean (token : Option Text) : Prop :=
  ∀ t ∈ token, t.countP isDot = 1 → (characters (beforeDot t)).isSome ∧ (behindDot t).all isAscii = true

/-- The expiry, as it is written, has not passed, and is a time. -/
def InTime (signedAt now : DateTime) : Prop :=
  now < wholeSeconds (signedAt + signer.lifetime) * 1000000 ∧ wholeSeconds (signedAt + signer.lifetime) ≤ maxSecond

/-- In no text a high surrogate comes directly before a low one. -/
def Unpaired (principal : TextPrincipal) (correlationId : Text) : Prop :=
  ∀ t ∈ principal.actorId :: principal.displayLabel :: correlationId :: principal.projectScopes, hasPair t = false

instance (principal : TextPrincipal) (correlationId : Text) : Decidable (Unpaired principal correlationId) :=
  inferInstanceAs (Decidable (∀ t ∈ _, _))

/-- A valid token is accepted, and any other is refused with the authorization error. -/
def TokenLaw : Prop :=
  (∀ principal correlationId signedAt t e, signer.sign principal correlationId signedAt = .ok t →
    signedAt ≤ e.now → e.now < signedAt + signer.lifetime → IsExpected principal e →
    Returns principal correlationId (signer.verify (some (scalars t)) e)) ∧
  ∀ token e, signer.Unforged token e.now → ¬ signer.Valid token e →
    ∃ message, signer.verify token e = .error (.authorization message)

variable {signer} {principal : TextPrincipal} {correlationId : Text} {signedAt : DateTime} {t : List Char}
  {e : Expectations}

theorem sign_ok : signer.sign principal correlationId signedAt = .ok t ↔
    (minSecond * 1000000 ≤ signedAt + signer.lifetime ∧ signedAt + signer.lifetime < (maxSecond + 1) * 1000000) ∧
      t = signer.token (signer.encoded principal correlationId signedAt) := by
  rw [sign]
  split
  · rename_i hrange
    constructor
    · intro h
      exact ⟨hrange, (Except.ok.inj h).symm⟩
    · intro h
      rw [h.2]
  · rename_i hrange
    constructor
    · intro h
      cases h
    · intro h
      exact absurd h.1 hrange

/-- The expiry of a signed token is a time, or in the second after the last. -/
theorem fromSeconds_signed (h : signer.sign principal correlationId signedAt = .ok t) :
    fromSeconds (wholeSeconds (signedAt + signer.lifetime)) =
      if wholeSeconds (signedAt + signer.lifetime) ≤ maxSecond then
        .ok (wholeSeconds (signedAt + signer.lifetime) * 1000000)
      else .error .valueError := by
  obtain ⟨hrange, _⟩ := sign_ok.mp h
  obtain ⟨hmin, hmax⟩ := wholeSeconds_range hrange.1 hrange.2
  rw [fromSeconds]
  split
  · rename_i hin
    rw [if_pos hin.2]
  · rename_i hout
    have hpast : ¬ wholeSeconds (signedAt + signer.lifetime) ≤ maxSecond := fun hle => hout ⟨hmin, hle⟩
    rw [if_neg hpast, if_pos]
    unfold minSecond maxSecond at *
    omega

/-- What becomes of a signed token. -/
theorem verify_signed (h : signer.sign principal correlationId signedAt = .ok t) (e : Expectations) :
    signer.verify (some (scalars t)) e =
      if wholeSeconds (signedAt + signer.lifetime) ≤ maxSecond then
        admitContext (contextOf principal.joined (join correlationId)
          (wholeSeconds (signedAt + signer.lifetime) * 1000000)) e
      else .error (.authorization "malformed internal context claims") := by
  rw [(sign_ok.mp h).2, verify_token encoded_no_dot, encoded, readContext_payload, fromSeconds_signed h]
  by_cases hmax : wholeSeconds (signedAt + signer.lifetime) ≤ maxSecond
  · rw [if_pos hmax, if_pos hmax]
  · rw [if_neg hmax, if_neg hmax]
    rfl

/-- A signed token is accepted before its expiry by whoever expects what is read of it; else
    it is refused. -/
theorem verify_signed_cases (h : signer.sign principal correlationId signedAt = .ok t) (e : Expectations) :
    (signer.verify (some (scalars t)) e = .ok
        (contextOf principal.joined (join correlationId) (wholeSeconds (signedAt + signer.lifetime) * 1000000)) ∧
      signer.InTime signedAt e.now ∧ IsExpected principal.joined e) ∨
    ((∃ message, signer.verify (some (scalars t)) e = .error (.authorization message)) ∧
      ¬ (signer.InTime signedAt e.now ∧ IsExpected principal.joined e)) := by
  rw [verify_signed h]
  split
  · rename_i hmax
    rcases admitContext_cases (contextOf principal.joined (join correlationId)
      (wholeSeconds (signedAt + signer.lifetime) * 1000000)) e with hgood | hbad
    · obtain ⟨hok, hlive, hexpected⟩ := hgood
      exact .inl ⟨hok, ⟨hlive, hmax⟩, hexpected⟩
    · exact .inr ⟨hbad.1, fun hgood => hbad.2 ⟨hgood.1.1, hgood.2⟩⟩
  · rename_i hmax
    exact .inr ⟨⟨_, rfl⟩, fun hgood => hmax hgood.1.2⟩

omit [Platform] in
/-- Joining changes a principal or a correlation id exactly if there is a pair in one. -/
theorem joined_eq_iff : principal.joined = principal ∧ join correlationId = correlationId ↔
    Unpaired principal correlationId := by
  obtain ⟨actorId, displayLabel, role, environment, projectScopes⟩ := principal
  have hscopes : projectScopes.map join = projectScopes ↔ ∀ t ∈ projectScopes, hasPair t = false := by
    constructor
    · intro h t ht
      rw [← List.map_id projectScopes, List.map_map] at h
      exact (join_eq_self t).mp (List.map_inj_left.mp h t ht)
    · intro h
      refine (List.map_congr_left fun t ht => ?_).trans (List.map_id projectScopes)
      exact (join_eq_self t).mpr (h t ht)
  simp only [TextPrincipal.joined, TextPrincipal.mk.injEq, true_and, Unpaired, List.forall_mem_cons, join_eq_self,
    hscopes]
  exact ⟨fun h => ⟨h.1.1, h.1.2.1, h.2, h.1.2.2⟩, fun h => ⟨⟨h.1, h.2.1, h.2.2.2⟩, h.2.2.1⟩⟩

theorem returns_iff (h : signer.sign principal correlationId signedAt = .ok t) (hexpected : IsExpected principal e) :
    Returns principal correlationId (signer.verify (some (scalars t)) e) ↔
      signer.InTime signedAt e.now ∧ Unpaired principal correlationId := by
  rw [← joined_eq_iff]
  rcases verify_signed_cases h e with haccepted | hrefused
  · obtain ⟨hok, hlive, _⟩ := haccepted
    rw [hok]
    constructor
    · intro h'
      obtain ⟨expiresAt, hcontext⟩ := h'
      have hsame := Except.ok.inj hcontext
      exact ⟨hlive, congrArg SignedContext.toTextPrincipal hsame, congrArg SignedContext.correlationId hsame⟩
    · intro h'
      rw [h'.2.1, h'.2.2]
      exact ⟨_, rfl⟩
  · obtain ⟨hmessage, hbad⟩ := hrefused
    obtain ⟨message, herror⟩ := hmessage
    rw [herror]
    constructor
    · intro h'
      obtain ⟨expiresAt, hcontext⟩ := h'
      cases hcontext
    · intro h'
      refine absurd ⟨h'.1, ?_⟩ hbad
      rw [h'.2.1]
      exact hexpected

omit [Platform] in
/-- A token is also that of the principal as it is read back. -/
theorem encoded_joined : signer.encoded principal.joined (join correlationId) signedAt =
    signer.encoded principal correlationId signedAt := by
  rw [encoded, encoded, ← payload_joined, dumps_joined]

theorem sign_joined (h : signer.sign principal correlationId signedAt = .ok t) :
    signer.sign principal.joined (join correlationId) signedAt = .ok t := by
  obtain ⟨hrange, ht⟩ := sign_ok.mp h
  refine sign_ok.mpr ⟨hrange, ?_⟩
  rw [encoded_joined]
  exact ht

omit [Platform] in
theorem within_lifetime {now lifetime : Int} (h : 0 < lifetime) :
    now + 1 - lifetime ≤ now ∧ now < now + 1 - lifetime + lifetime := by
  omega

/-- Whatever time is between the end of a token's lifetime and its expiry, a token of the
    same text is signed for it. -/
theorem sign_later {now : DateTime} (h : signer.sign principal correlationId signedAt = .ok t)
    (hover : ¬ now < signedAt + signer.lifetime)
    (hlive : now < wholeSeconds (signedAt + signer.lifetime) * 1000000)
    (hmax : wholeSeconds (signedAt + signer.lifetime) ≤ maxSecond) :
    signer.sign principal correlationId (now + 1 - signer.lifetime) = .ok t := by
  obtain ⟨hrange, ht⟩ := sign_ok.mp h
  have hend : now + 1 - signer.lifetime + signer.lifetime = now + 1 := Int.sub_add_cancel _ _
  have hlower : signedAt + signer.lifetime ≤ now + 1 := Int.le_add_one (Int.not_lt.mp hover)
  have hupper : now + 1 ≤ wholeSeconds (signedAt + signer.lifetime) * 1000000 := hlive
  have hsame := wholeSeconds_between hlower hupper
  refine sign_ok.mpr ⟨?_, ?_⟩
  · rw [hend]
    refine ⟨Int.le_trans hrange.1 hlower, Int.lt_of_le_of_lt hupper ?_⟩
    unfold maxSecond at *
    omega
  · rw [ht, encoded, encoded, hend, hsame]

/-- A signed token is valid, or it is refused. -/
theorem valid_or_refused (h : signer.sign principal correlationId signedAt = .ok t) (hnow : signedAt ≤ e.now) :
    signer.Valid (some (scalars t)) e ∨
      ∃ message, signer.verify (some (scalars t)) e = .error (.authorization message) := by
  rcases verify_signed_cases h e with haccepted | hrefused
  · obtain ⟨_, ⟨hlive, hmax⟩, hexpected⟩ := haccepted
    have h := sign_joined h
    refine .inl ?_
    by_cases hlifetime : e.now < signedAt + signer.lifetime
    · exact ⟨principal.joined, join correlationId, signedAt, t, h, rfl, hnow, hlifetime, hexpected⟩
    -- the expiry was rounded up, so that a later signing makes the same token
    · obtain ⟨hbefore, hafter⟩ := @within_lifetime e.now signer.lifetime signer.lifetime_pos
      exact ⟨principal.joined, join correlationId, e.now + 1 - signer.lifetime, t, sign_later h hlifetime hlive hmax,
        rfl, hbefore, hafter, hexpected⟩
  · exact .inr hrefused.1

/-- A token is refused with the authorization error, or its text is not clean. -/
theorem verify_unsigned {token : Option Text} (hunsigned : ¬ signer.Signed token e.now)
    (hunforged : signer.Unforged token e.now) :
    (∃ message, signer.verify token e = .error (.authorization message)) ↔ Clean token := by
  cases token with
  | none => exact ⟨fun _ t ht => (by cases ht), fun _ => ⟨_, rfl⟩⟩
  | some text =>
    rw [verify]
    by_cases hcount : text.countP isDot = 1
    · simp only [hcount, ne_eq, not_true_eq_false, if_false]
      cases hbefore : characters (beforeDot text) with
      | none =>
        constructor
        · intro h
          obtain ⟨message, h⟩ := h
          cases h
        · intro h
          have := (h text rfl hcount).1
          rw [hbefore] at this
          cases this
      | some part =>
        dsimp only
        by_cases hascii : (behindDot text).all isAscii = true
        · have hclean : Clean (some text) := by
            intro t ht _
            cases ht
            exact ⟨by rw [hbefore]; rfl, hascii⟩
          rw [if_pos hascii, if_neg]
          · exact ⟨fun _ => hclean, fun _ => ⟨_, rfl⟩⟩
          · intro hsignature
            have hpart := characters_eq_some.mp hbefore
            have htoken : text = scalars (signer.token part) := by
              rw [scalars_token, ← hpart, ← hsignature]
              exact token_parts (by omega)
            refine hunsigned (hunforged part (fun hdot => ?_) (by rw [htoken]))
            have hmem : CodePoint.scalar '.' ∈ beforeDot text := by
              rw [hpart]
              exact List.mem_map_of_mem hdot
            simpa [isDot] using List.mem_takeWhile_imp hmem
        · rw [if_neg hascii]
          constructor
          · intro h
            obtain ⟨message, h⟩ := h
            cases h
          · intro h
            exact absurd (h text rfl hcount).2 hascii
    · rw [if_pos hcount]
      refine ⟨fun _ t ht hone => ?_, fun _ => ⟨_, rfl⟩⟩
      cases ht
      exact absurd hone hcount

theorem right_clean {part : List Char} (h : '.' ∉ part) : Clean (some (scalars (signer.token part))) := by
  intro text ht _
  rw [← Option.some.inj ht, scalars_token, beforeDot_append h, behindDot_append h, characters_scalars]
  exact ⟨rfl, signature_ascii⟩

theorem signed_clean (h : signer.sign principal correlationId signedAt = .ok t) : Clean (some (scalars t)) := by
  rw [(sign_ok.mp h).2]
  exact right_clean encoded_no_dot

/-- Under the law the text of every token would be clean. -/
theorem TokenLaw.clean (h : signer.TokenLaw) (token : Option Text) (e : Expectations) : Clean token := by
  by_contra hunclean
  have hunforged : signer.Unforged token e.now := by
    intro part hpart htoken
    exact absurd (htoken ▸ right_clean hpart) hunclean
  have hunsigned : ¬ signer.Signed token e.now := by
    intro hsigned
    obtain ⟨principal, correlationId, signedAt, t, _, hsign, htoken⟩ := hsigned
    exact hunclean (htoken ▸ signed_clean hsign)
  have hinvalid : ¬ signer.Valid token e := by
    intro hvalid
    obtain ⟨principal, correlationId, signedAt, t, hsign, htoken, hnow, _⟩ := hvalid
    exact hunsigned ⟨principal, correlationId, signedAt, t, hnow, hsign, htoken⟩
  exact hunclean ((verify_unsigned hunsigned hunforged).mp (h.2 token e hunforged hinvalid))

theorem token_law_iff (signer : InternalContextSigner) :
    (∀ principal correlationId signedAt t e, signer.sign principal correlationId signedAt = .ok t →
      signedAt ≤ e.now → e.now < signedAt + signer.lifetime → IsExpected principal e →
      (Returns principal correlationId (signer.verify (some (scalars t)) e) ↔
        signer.InTime signedAt e.now ∧ Unpaired principal correlationId)) ∧
    ∀ token e, signer.Unforged token e.now → ¬ signer.Valid token e →
      ((∃ message, signer.verify token e = .error (.authorization message)) ↔ Clean token) := by
  refine ⟨fun principal correlationId signedAt t e h _ _ hexpected => returns_iff h hexpected, ?_⟩
  intro token e hunforged hinvalid
  by_cases hsigned : signer.Signed token e.now
  · obtain ⟨principal, correlationId, signedAt, t, hnow, hsign, rfl⟩ := hsigned
    refine ⟨fun _ => signed_clean hsign, fun _ => ?_⟩
    rcases valid_or_refused hsign hnow with hvalid | hrefused
    · exact absurd hvalid hinvalid
    · exact hrefused
  · exact verify_unsigned hsigned hunforged

end InternalContextSigner

end

/-! ## A signature that is not ASCII -/

/-- A platform whose HMAC of a text is the text. -/
@[reducible] def Platform.plain : Platform where
  hmac _ part := part.map byteOf
  loads _ := .error .valueError
  fromFloat _ := .error .valueError
  beyond _ := .other

/-- Tokens of a minute. -/
def demoSigner : InternalContextSigner := ⟨List.replicate 32 0, 60000000, by decide, by decide⟩

def demoPrincipal : TextPrincipal := ⟨text "actor-1", text "Viewer", .viewer, .test, [text "WRD"]⟩

def demoExpectations (now : DateTime) : Expectations := ⟨.test, text "WRD", [.viewer], now⟩

theorem a_strange_signature_raises : letI := Platform.plain
    ¬ demoSigner.TokenLaw := by
  let _ := Platform.plain
  intro h
  have hclean := h.clean (some (text "a.é")) (demoExpectations 0)
  have hcount : (text "a.é").countP isDot = 1 := by decide
  have hascii : (behindDot (text "a.é")).all isAscii = false := by decide
  have := (hclean _ rfl hcount).2
  rw [hascii] at this
  cases this

theorem half_a_minute_is_accepted : letI := Platform.plain
    (∃ t, demoSigner.sign demoPrincipal (text "corr-1") 0 = .ok t ∧
      InternalContextSigner.Returns demoPrincipal (text "corr-1")
        (demoSigner.verify (some (scalars t)) (demoExpectations 30000000))) ∧
    ∃ message, demoSigner.verify none (demoExpectations 30000000) = .error (.authorization message) := by
  let _ := Platform.plain
  have hlaw := InternalContextSigner.token_law_iff demoSigner
  refine ⟨⟨_, InternalContextSigner.sign_ok.mpr ⟨by decide, rfl⟩, ?_⟩, ?_⟩
  · refine (hlaw.1 _ _ _ _ _ (InternalContextSigner.sign_ok.mpr ⟨by decide, rfl⟩) (by decide) (by decide)
      ⟨rfl, by decide, by decide⟩).mpr ⟨⟨by decide, by decide⟩, by decide⟩
  · refine (hlaw.2 none _ (fun part _ h => (by cases h)) fun h => ?_).mpr fun t ht => by cases ht
    obtain ⟨_, _, _, _, _, h, _⟩ := h
    cases h

end WorkforceRisk.Contracts
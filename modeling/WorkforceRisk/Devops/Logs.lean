/-
  WorkforceRisk.Devops.Logs — log lines that leave the cluster
  (services/devops-mcp/src/devops_mcp/tools/logs.py, schemas.py).

  The leftmost secrets of a line (`SecretAt`, `Leftmost`) are replaced by a mark, and the
  line is cut to 2000 characters. A name that is quoted is followed by its quote, so that
  the fields of a JSON object are no secrets (`json_secret_leaves`).

  Proved (`secrets_hidden_iff`): a line that leaves is without the value of a secret field
  exactly if where the value is given a secret takes something of it, everywhere else it
  stands one does too, or it is past the cut there, and no mark makes it up. Where it is
  given (`valueTaken_iff`) a secret takes something of a value in text unless the field's
  name is inside a secret that began before and ends before the value; of a value in JSON
  only if a secret from before goes on into the value, or one begins in it.
-/

import WorkforceRisk.Devops.Secrets

namespace WorkforceRisk.Devops

open Lib Persistence Historical Evidence Regex

def allowedServices : List String := ["agent-api", "workforce-risk-mcp", "devops-mcp", "notification-worker"]

structure LogRequest where
  environment : Environment
  correlationId : String
  service : String
  start : DateTime
  stop : DateTime
  limit : Nat
  correlationId_ok : 1 ≤ correlationId.length ∧ correlationId.length ≤ 128
  limit_ok : 1 ≤ limit ∧ limit ≤ 500
  service_ok : service ∈ allowedServices
  window_ok : start < stop ∧ stop - start ≤ hours 1

structure LogData where
  service : String
  lines : List String
  returned : Nat

structure DiagnosticEnvelope (α : Type) where
  environment : Environment
  correlationId : String
  evidenceTimestamp : DateTime
  status : String
  data : α

def mark : List Char := "<redacted>".toList

section
variable [TextTables]

/-- `SECRET_PATTERN.sub("<redacted>", line)[:2_000]` -/
def redacted (line : String) : String := String.ofList ((sub secretPattern mark line.toList).take 2000)

/-- `read_logs`, with the lines that were read. -/
def readLogs (request : LogRequest) (lines : List String) (now : DateTime) : DiagnosticEnvelope LogData :=
  let shown := (lines.take request.limit).map redacted
  ⟨request.environment, request.correlationId, now, "success", ⟨request.service, shown, shown.length⟩⟩

/-! ## Secret fields -/

/-- `key=value` or `key: value`, with what joins them. -/
structure AsText (joint value : List Char) : Prop where
  signed : ∃ blanks sign blanks', joint = blanks ++ sign :: blanks' ∧ Blank blanks ∧ (sign = '=' ∨ sign = ':') ∧
    Blank blanks'
  solid : ∀ c ∈ value, Unicode.isSpace c = false

/-- A text between the quotes of a JSON string. -/
def isJsonText : List Char → Bool
  | [] => true
  | '\\' :: _ :: cs => isJsonText cs
  | '\\' :: [] => false
  | c :: cs => c != '"' && isJsonText cs

/-- `"key": "value"` -/
structure AsJson (before joint value right : List Char) : Prop where
  opened : before.getLast? = some '"'
  signed : ∃ blanks blanks', joint = '"' :: (blanks ++ ':' :: (blanks' ++ ['"'])) ∧ Blank blanks ∧ Blank blanks'
  text : isJsonText value = true
  closed : right.head? = some '"'

/-- A field of a line with a secret value, as it is written there. -/
structure SecretField (line : List Char) where
  before : List Char
  name : List Char
  joint : List Char
  value : List Char
  right : List Char
  line_eq : line = before ++ (name ++ (joint ++ (value ++ right)))
  named : isSecretName name = true
  value_ne : value ≠ []
  given : AsText joint value ∨ AsJson before joint value right

namespace SecretField

variable {line : List Char} (field : SecretField line)

def place : Nat := field.before.length

def valuePlace : Nat := field.before.length + field.name.length + field.joint.length

def valueEnd : Nat := field.valuePlace + field.value.length

end SecretField

/-- Of the secrets that are replaced, one takes something of a field's value. -/
inductive ValueTaken {line : List Char} (chosen : List Span) (field : SecretField line) : Prop where
  /-- It began before the field. -/
  | goesOn (s : Span) (mem : s ∈ chosen) (before : s.start < field.place) (past : field.valuePlace < s.stop)
  /-- It begins in the value. -/
  | inside (s : Span) (mem : s ∈ chosen) (from_value : field.valuePlace ≤ s.start)
      (before_end : s.start < field.valueEnd)
  /-- It is the field, which none from before goes into. -/
  | field (asText : AsText field.joint field.value) (free : ∀ s ∈ chosen, s.start < field.place → s.stop ≤ field.place)

/-- What stands behind this text is past the cut. -/
def PastCut (chosen : List Span) (before value : List Char) : Prop :=
  2000 < (cells mark chosen 0 before).length + value.length

/-- The line without the value of a field. -/
structure Hidden {line : List Char} (chosen : List Span) (field : SecretField line) : Prop where
  given : ValueTaken chosen field ∨ PastCut chosen (field.before ++ (field.name ++ field.joint)) field.value
  elsewhere : ∀ before after, line = before ++ (field.value ++ after) → before.length ≠ field.valuePlace →
    Touches chosen before.length field.value.length ∨ PastCut chosen before field.value
  unmarked : ¬ ReadWithMark mark chosen 2000 line field.value

section
variable {line : List Char} {chosen : List Span}

theorem AsText.quiet (tables : CaseTables) {joint value more : List Char} (h : AsText joint value) :
    Quiet joint more := by
  obtain ⟨blanks, sign, blanks', rfl, hblank, hsign, hblank'⟩ := h.signed
  have hsign' : sign ∈ ['=', ':', '"'] := by
    rcases hsign with rfl | rfl
    · decide
    · decide
  exact (quiet_blank tables hblank).append (quiet_sign tables hsign' (quiet_blank tables hblank'))

theorem AsJson.quiet (tables : CaseTables) {before joint value right more : List Char}
    (h : AsJson before joint value right) : Quiet joint more := by
  obtain ⟨blanks, blanks', rfl, hblank, hblank'⟩ := h.signed
  refine quiet_sign tables (by decide) ((quiet_blank tables hblank).append (quiet_sign tables (by decide) ?_))
  exact (quiet_blank tables hblank').append (quiet_sign tables (by decide) trivial)

namespace SecretField

variable (field : SecretField line)

theorem value_pos : 0 < field.value.length := List.length_pos_iff.mpr field.value_ne

theorem place_le : field.place ≤ field.valuePlace := by
  unfold place valuePlace
  omega

/-- Between the beginning of a field and its value no secret begins. -/
theorem valuePlace_le (tables : CaseTables) {s : Span} (hs : SecretAt line s) (hstart : field.place < s.start) :
    field.valuePlace ≤ s.start := by
  obtain ⟨x, tail, hname, htail⟩ := quiet_name tables (secretName_of_lower tables field.named)
  have hjoint : Quiet field.joint (field.value ++ field.right) := field.given.elim (·.quiet tables) (·.quiet tables)
  have hline : line = field.before ++ [x] ++ (tail ++ field.joint ++ (field.value ++ field.right)) := by
    conv_lhs => rw [field.line_eq, hname]
    simp only [List.append_assoc, List.cons_append, List.nil_append]
  have hbefore : (field.before ++ [x]).length ≤ s.start := by
    rw [List.length_append]
    exact hstart
  have hpast := (htail.append hjoint).not_secretAt (hline ▸ hs) hbefore
  simp only [List.length_append, List.length_singleton] at hpast
  unfold valuePlace
  rw [hname, List.length_cons]
  omega

/-- A field in text is a secret, its value in it. -/
theorem secretAt (tables : CaseTables) (h : AsText field.joint field.value) :
    ∃ stop, SecretAt line ⟨field.place, stop⟩ ∧ field.valueEnd ≤ stop := by
  obtain ⟨blanks, sign, blanks', hjoint, hblank, hsign, hblank'⟩ := h.signed
  have hsecret : IsSecret (field.name ++ (blanks ++ sign :: (blanks' ++ field.value))) :=
    .assigned (secretName_of_lower tables field.named) hblank hsign hblank' ⟨field.value_ne, h.solid⟩
  obtain ⟨stop, hat, hstop⟩ := secretAt_of_secret hsecret field.before field.right
  refine ⟨stop, ?_, ?_⟩
  · have hline : line =
        field.before ++ (field.name ++ (blanks ++ sign :: (blanks' ++ field.value)) ++ field.right) := by
      conv_lhs => rw [field.line_eq, hjoint]
      simp only [List.append_assoc, List.cons_append]
    rw [← hline] at hat
    exact hat
  · unfold valueEnd valuePlace
    rw [hjoint]
    simp only [List.length_append, List.length_cons] at hstop ⊢
    omega

/-- A field in JSON is no secret. -/
theorem not_secretAt (tables : CaseTables) (h : AsJson field.before field.joint field.value field.right) {s : Span}
    (hs : SecretAt line s) : s.start ≠ field.place := by
  rintro hstart
  obtain ⟨before, t, rest, hline, hsecret, -, rfl⟩ := hs
  obtain ⟨blanks, blanks', hjoint, -, -⟩ := h.signed
  obtain ⟨-, hrest⟩ := List.append_inj (field.line_eq.symm.trans hline) hstart.symm
  rw [hjoint] at hrest
  exact not_secret_of_quote tables (secretName_of_lower tables field.named) hrest hsecret

/-- When a secret takes something of a value where it is given. -/
theorem valueTaken_iff (tables : CaseTables) (hchosen : Leftmost (SecretAt line) chosen) :
    Touches chosen field.valuePlace field.value.length ↔ ValueTaken chosen field := by
  have hvalue := field.value_pos
  have hplace := field.place_le
  constructor
  · rintro ⟨s, hs, hstart, hstop⟩
    have hat := hchosen.matched s hs
    rcases Nat.lt_trichotomy s.start field.place with hbefore | hsame | hafter
    · exact .goesOn s hs hbefore hstop
    · rcases field.given with htext | hjson
      · refine .field htext fun t ht hbefore => ?_
        rw [← hsame] at hbefore ⊢
        exact Nat.le_of_not_lt (hchosen.not_inside (fun _ => SecretAt.length_pos) hs ht hbefore)
      · exact absurd hsame (field.not_secretAt tables hjson hat)
    · exact .inside s hs (field.valuePlace_le tables hat hafter) hstart
  · rintro (⟨s, hs, hbefore, hpast⟩ | ⟨s, hs, hfrom, hend⟩ | ⟨htext, hfree⟩)
    · exact ⟨s, hs, by omega, hpast⟩
    · have htakes := (hchosen.matched s hs).length_pos
      exact ⟨s, hs, hend, by omega⟩
    · obtain ⟨stop, hat, hstop⟩ := field.secretAt tables htext
      unfold valueEnd at hstop
      rcases hchosen.first _ hat with hin | ⟨t, ht, hbefore, hinside⟩
      · exact ⟨_, hin, by dsimp only; omega, by dsimp only; omega⟩
      · exact absurd hinside (Nat.not_lt.mpr (hfree t ht hbefore))

end SecretField

omit [TextTables] in
/-- A value without the ends of the mark that is no part of its word is not read with it. -/
theorem unmarked {limit : Nat} {value : List Char} (hopen : '<' ∉ value) (hclose : '>' ∉ value)
    (hword : ¬ value <:+: "redacted".toList) : ¬ ReadWithMark mark chosen limit line value :=
  fun h => not_readWithMark hopen hclose hword (show ReadWithMark ('<' :: ("redacted".toList ++ ['>'])) _ _ _ _ from h)

end

theorem SecretField.valueAt {line : List Char} (field : SecretField line) :
    line = field.before ++ (field.name ++ field.joint) ++ (field.value ++ field.right) ∧
      (field.before ++ (field.name ++ field.joint)).length = field.valuePlace := by
  refine ⟨?_, ?_⟩
  · conv_lhs => rw [field.line_eq]
    simp only [List.append_assoc]
  · simp only [List.length_append, SecretField.valuePlace, Nat.add_assoc]

theorem hidden_iff (tables : CaseTables) {line : String} {chosen : List Span}
    (hchosen : Leftmost (SecretAt line.toList) chosen) (field : SecretField line.toList) :
    ¬ field.value <:+: (redacted line).toList ↔ Hidden chosen field := by
  have hsame : chosen = secrets line.toList :=
    hchosen.unique (fun _ => SecretAt.length_pos) (secrets_leftmost tables line.toList)
  have hne : ∀ s ∈ chosen, s.start < s.stop := fun s hs => (hchosen.matched s hs).length_pos
  obtain ⟨hline, hlength⟩ := field.valueAt
  rw [redacted, String.toList_ofList, sub, ← secrets, ← hsame,
    not_infix_cells_take_iff (by decide) hne 2000 field.value_ne]
  constructor
  · rintro ⟨hplaces, hunmarked⟩
    refine ⟨?_, fun before after htext _ => hplaces before after htext, hunmarked⟩
    refine (hplaces _ _ hline).imp_left fun htouches => (field.valueTaken_iff tables hchosen).mp ?_
    rwa [hlength] at htouches
  · rintro ⟨hgiven, helsewhere, hunmarked⟩
    refine ⟨fun before after htext => ?_, hunmarked⟩
    by_cases hplace : before.length = field.valuePlace
    · obtain ⟨rfl, -⟩ := List.append_inj (htext.symm.trans hline) (hplace.trans hlength.symm)
      refine hgiven.imp_left fun htaken => ?_
      rw [hlength]
      exact (field.valueTaken_iff tables hchosen).mpr htaken
    · exact helsewhere before after htext hplace

/-- Of each line that was read, exactly which secret values leave with it. -/
theorem secrets_hidden_iff (tables : CaseTables) (request : LogRequest) (lines : List String) (now : DateTime) :
    List.Forall₂ (fun line returned => (∃! chosen, Leftmost (SecretAt line.toList) chosen) ∧
      ∀ chosen, Leftmost (SecretAt line.toList) chosen → ∀ field : SecretField line.toList,
        ¬ field.value <:+: returned.toList ↔ Hidden chosen field)
      (lines.take request.limit) (readLogs request lines now).data.lines := by
  show List.Forall₂ _ _ ((lines.take request.limit).map redacted)
  refine List.forall₂_map_right_iff.mpr (List.forall₂_same.mpr fun line _ => ⟨?_, ?_⟩)
  · refine ⟨_, secrets_leftmost tables line.toList, fun other hother => ?_⟩
    exact hother.unique (fun _ => SecretAt.length_pos) (secrets_leftmost tables line.toList)
  · exact fun chosen hchosen field => hidden_iff tables hchosen field

end

/-! ## A line of each notation -/

theorem sampleRequest_ok : (1 ≤ "c".length ∧ "c".length ≤ 128) ∧ (1 ≤ 100 ∧ 100 ≤ 500) ∧ "agent-api" ∈ allowedServices ∧
    ((0 : DateTime) < 60000000 ∧ (60000000 : DateTime) - 0 ≤ hours 1) := by decide

def sampleRequest : LogRequest :=
  ⟨.dev, "c", "agent-api", 0, 60000000, 100, sampleRequest_ok.1, sampleRequest_ok.2.1, sampleRequest_ok.2.2.1,
    sampleRequest_ok.2.2.2⟩

section
attribute [local instance] TextTables.ascii

def textLine : String := "password=hunter2 ok"

theorem textSecret_given : AsText ['='] "hunter2".toList := by
  refine ⟨⟨[], '=', [], rfl, List.forall_mem_nil _, .inl rfl, List.forall_mem_nil _⟩, fun c hc => ?_⟩
  have hsolid : ("hunter2".toList.all fun c => !Unicode.isSpace c) = true := by decide
  simpa using List.all_eq_true.mp hsolid c hc

def textSecret : SecretField textLine.toList where
  before := []
  name := "password".toList
  joint := ['=']
  value := "hunter2".toList
  right := " ok".toList
  line_eq := by decide
  named := by decide
  value_ne := by decide
  given := .inl textSecret_given

theorem textSecret_once : ∀ n < 20, n ≠ 9 → (textLine.toList.drop n).take 7 ≠ "hunter2".toList := by decide

/-- The password of a line in text is not in the line that leaves. -/
theorem text_secret_hidden : ¬ "hunter2".toList <:+: (redacted textLine).toList := by
  obtain ⟨⟨⟨chosen, hchosen, -⟩, hiff⟩, -⟩ :=
    List.forall₂_cons.mp (secrets_hidden_iff ascii_caseTables sampleRequest [textLine] 0)
  refine (hiff chosen hchosen textSecret).mpr ⟨.inl (.field textSecret_given ?_),
    fun before after htext hplace => ?_, ?_⟩
  · exact fun s _ hbefore => absurd hbefore (Nat.not_lt_zero _)
  · have hlength := congrArg List.length htext
    rw [List.length_append] at hlength
    have hshort : before.length < 20 := Nat.lt_of_le_of_lt (Nat.le_of_add_right_le hlength.ge) (by decide)
    refine absurd ?_ (textSecret_once before.length hshort hplace)
    rw [htext, List.drop_left]
    exact List.take_left' rfl
  · refine unmarked (by decide) (by decide) fun hpart => ?_
    exact absurd (hpart.subset (by decide : 'h' ∈ "hunter2".toList)) (by decide)

def jsonLine : String := "\x7b\"password\": \"hunter2\"\x7d"

def jsonSecret : SecretField jsonLine.toList where
  before := "\x7b\"".toList
  name := "password".toList
  joint := "\": \"".toList
  value := "hunter2".toList
  right := "\"\x7d".toList
  line_eq := by decide
  named := by decide
  value_ne := by decide
  given := .inr ⟨by decide, ⟨[], [' '], by decide, List.forall_mem_nil _, List.forall_mem_singleton.mpr (by decide)⟩,
    by decide, by decide⟩

/-- The password of a JSON object leaves as it is. -/
theorem json_secret_leaves : ¬ ∀ (request : LogRequest) (lines : List String) (now : DateTime),
    List.Forall₂ (fun line returned => ∀ field : SecretField line.toList, ¬ field.value <:+: returned.toList)
      (lines.take request.limit) (readLogs request lines now).data.lines := by
  intro h
  have hshown : redacted jsonLine = jsonLine := by decide +kernel
  obtain ⟨hsecret, -⟩ := List.forall₂_cons.mp (show List.Forall₂ _ [jsonLine] [redacted jsonLine] from
    h sampleRequest [jsonLine] 0)
  rw [hshown] at hsecret
  exact hsecret jsonSecret ⟨"\x7b\"password\": \"".toList, "\"\x7d".toList, by decide⟩

end

end WorkforceRisk.Devops

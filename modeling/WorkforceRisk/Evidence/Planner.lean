/-
  WorkforceRisk.Evidence.Planner — the model's choice of evidence
  (services/agent-api/src/agent_api/evidence/planner.py).

  The model is asked for a plan in JSON, in a code fence or not, and again where it was out
  of reach. What it says is read by `json.loads` and checked as an `EvidencePlan`; anything
  that is none makes the plan that reads everything.

  Proved: `plan_reads_back`: a plan the model writes is the plan that is returned, fenced
  or not, whatever outages came before. `plan_is_readable`: every plan that is returned has
  categories and none twice; the model is asked at most as often as it may be, and again
  only after outages; what is raised is the last of as many outages, or what the model
  raised that is none, or a fence without a line in it.
-/

import WorkforceRisk.Evidence.Collector
import WorkforceRisk.Evidence.Numbers
import WorkforceRisk.Lib.JsonText
import WorkforceRisk.Lib.Retry

namespace WorkforceRisk.Evidence

open Lib Persistence Historical
open Lib.JsonText (JsonValue Text)

/-! ## Values -/

namespace EvidenceScope

def value : EvidenceScope → String
  | project => "project"
  | employee => "employee"
  | task => "task"
  | mixed => "mixed"

def every : List EvidenceScope := [project, employee, task, mixed]

end EvidenceScope

namespace EvidenceCategory

def value : EvidenceCategory → String
  | jiraIssues => "jira_issues"
  | workforceProfiles => "workforce_profiles"
  | capacityAndWorkload => "capacity_and_workload"
  | skillsAndSeniority => "skills_and_seniority"
  | riskResults => "risk_results"
  | dependenciesAndBlockers => "dependencies_and_blockers"
  | deadlines => "deadlines"
  | history => "history"
  | operations => "operations"

/-- `tuple(EvidenceCategory)`. -/
def every : List EvidenceCategory :=
  [jiraIssues, workforceProfiles, capacityAndWorkload, skillsAndSeniority, riskResults, dependenciesAndBlockers, deadlines,
    history, operations]

end EvidenceCategory

namespace EntityKind

def value : EntityKind → String
  | project => "project"
  | employee => "employee"
  | task => "task"
  | risk => "risk"
  | operation => "operation"

def every : List EntityKind := [project, employee, task, risk, operation]

end EntityKind

/-- The member of an enumeration with a value. -/
def ofValue {α : Type} (every : List α) (value : α → String) (s : String) : Option α := every.find? fun a => value a == s

def conservativeReadPlan : EvidencePlan := ⟨.mixed, [], EvidenceCategory.every, true⟩

/-! ## Reading a plan -/

/-- A `str`: a text without halves of surrogate pairs. -/
def strOf : JsonValue → Option String
  | .str text => (JsonText.characters text).map String.ofList
  | _ => none

def listOf : JsonValue → Option (List JsonValue)
  | .list items => some items
  | _ => none

/-- The members of an object, by names that are all allowed; of two with one name the last counts. -/
def membersOf (allowed : List String) : JsonValue → Option (String → Option JsonValue)
  | .dict members =>
    if members.all fun member => allowed.any fun name => JsonText.scalars name.toList == member.1 then
      some fun name => members.reverse.lookup (JsonText.scalars name.toList)
    else none
  | _ => none

section
variable [Unicode]

/-- A `bool` as a lax model takes it. -/
def boolOf : JsonValue → Option Bool
  | .bool b => some b
  | .int n => if n = 1 then some true else if n = 0 then some false else none
  | .float literal => match floatOf (String.ofList literal) with
    | some (.finite q) => if q = 1 then some true else if q = 0 then some false else none
    | _ => none
  | .str text => (strOf (.str text)).bind fun s =>
    if s.toLower ∈ ["1", "on", "t", "true", "y", "yes"] then some true
    else if s.toLower ∈ ["0", "off", "f", "false", "n", "no"] then some false
    else none
  | _ => none

/-- `EvidenceEntity.model_validate(value)`. -/
def entityOf (value : JsonValue) : Option EvidenceEntity := do
  let member ← membersOf ["kind", "identifier"] value
  let kind ← (← member "kind") |> strOf |>.bind (ofValue EntityKind.every EntityKind.value)
  let identifier ← (← member "identifier") |> strOf
  if 1 ≤ identifier.length ∧ identifier.length ≤ 128 then some ⟨kind, identifier⟩ else none

def entitiesOf (value : JsonValue) : Option (List EvidenceEntity) := (listOf value).bind fun items => items.mapM entityOf

def categoryOf (value : JsonValue) : Option EvidenceCategory :=
  (strOf value).bind (ofValue EvidenceCategory.every EvidenceCategory.value)

def categoriesOf (value : JsonValue) : Option (List EvidenceCategory) :=
  (listOf value).bind fun items => items.mapM categoryOf

/-- A field that may be left out. -/
def orDefault {α : Type} (default : α) (read : JsonValue → Option α) : Option JsonValue → Option α
  | none => some default
  | some value => read value

/-- `EvidencePlan.model_validate(value)`. -/
def planOf (value : JsonValue) : Option EvidencePlan := do
  let member ← membersOf ["scope", "entities", "evidence_categories", "exhaustive"] value
  let scope ← (← member "scope") |> strOf |>.bind (ofValue EvidenceScope.every EvidenceScope.value)
  let entities ← orDefault [] entitiesOf (member "entities")
  let categories ← categoriesOf (← member "evidence_categories")
  let exhaustive ← orDefault false boolOf (member "exhaustive")
  if categories = [] then none else some ⟨scope, entities, categories, exhaustive⟩

end

/-! ## The fence -/

/-- What stands before the last occurrence of a text, if it occurs. -/
def beforeLast (mark : List Char) : List Char → Option (List Char)
  | [] => if mark = [] then some [] else none
  | c :: cs => match beforeLast mark cs with
    | some before => some (c :: before)
    | none => if mark <+: c :: cs then some [] else none

/-- The character a code fence is made of. -/
def tick : Char := Char.ofNat 96

def fence : List Char := [tick, tick, tick]

/-- Without its fence: from the first line break to the last fence after it. -/
def unfenced (value : List Char) : Except Fault (List Char) :=
  if fence <+: value then
    match value.dropWhile (· != '\n') with
    | [] => .error (.other "IndexError" "list index out of range")
    | _ :: body => .ok ((beforeLast fence body).getD body)
  else .ok value

/-! ## Asking for a plan -/

namespace Fault

/-- An `OSError`; a `TimeoutError` and a `PermissionError` are such. -/
def isOutage : Fault → Bool
  | timeoutError _ | osError _ => true
  | raised (.permissionError _) => true
  | _ => false

def isValueError : Fault → Bool
  | raised (.valueError _) | raised (.validationError _ _) => true
  | _ => false

end Fault

section
variable [Unicode]

/-- The plan that a text is, or else the one that reads everything. -/
def decodePlan (value : List Char) : EvidencePlan :=
  match (JsonText.loads value).bind planOf with
  | some plan => if plan.evidenceCategories.Nodup then plan else conservativeReadPlan
  | none => conservativeReadPlan

/-- What is made of a text of the model's. -/
def readPlan (raw : String) : Except Fault EvidencePlan := (unfenced (strip raw).toList).map decodePlan

structure BedrockEvidencePlanner where
  maxAttempts : {n : Nat // 1 ≤ n}

namespace BedrockEvidencePlanner

variable (planner : BedrockEvidencePlanner)

def step (attempt : Nat) (_ : Unit) (reply : Except Fault String) : Next Unit (Except Fault EvidencePlan) :=
  match reply with
  | .ok raw => .done (readPlan raw)
  | .error fault =>
    if fault.isOutage then if attempt + 1 < planner.maxAttempts.1 then .again () else .done (.error fault)
    else if fault.isValueError then .done (.ok conservativeReadPlan)
    else .done (.error fault)

/-- `plan`, on a tape of what the model answers. -/
def plan (tape : List (Except Fault String)) : Ended Unit (Except Fault String) (Except Fault EvidencePlan) :=
  retry (· < planner.maxAttempts.1) planner.step 0 () tape

end BedrockEvidencePlanner

end

/-! ## What a plan reads back as -/

theorem beforeLast_short {mark : List Char} (hmark : mark ≠ []) : ∀ {text : List Char}, text.length < mark.length →
    beforeLast mark text = none := by
  intro text
  induction text with
  | nil =>
    intro _
    exact if_neg hmark
  | cons c cs ih =>
    intro h
    rw [beforeLast, ih (by rw [List.length_cons] at h; omega)]
    exact if_neg fun hpre => absurd hpre.length_le (by omega)

/-- At the end of a text its mark is the last. -/
theorem beforeLast_append {mark : List Char} (hmark : mark ≠ []) (before : List Char) :
    beforeLast mark (before ++ mark) = some before := by
  induction before with
  | nil =>
    cases mark with
    | nil => exact absurd rfl hmark
    | cons c cs =>
      rw [List.nil_append, beforeLast, beforeLast_short hmark (by simp)]
      exact if_pos (List.prefix_refl _)
  | cons c cs ih => rw [List.cons_append, beforeLast, ih]

/-- A text with its fence around it is the text. -/
theorem unfenced_fenced {label text : List Char} (hlabel : '\n' ∉ label) :
    unfenced (fence ++ label ++ '\n' :: (text ++ fence)) = .ok text := by
  have hdrop : (fence ++ label ++ '\n' :: (text ++ fence)).dropWhile (· != '\n') = '\n' :: (text ++ fence) := by
    rw [List.dropWhile_append_of_pos]
    · rfl
    · intro c hc
      have hne : c ≠ '\n' := by
        rintro rfl
        rcases List.mem_append.mp hc with hc | hc
        · exact absurd hc (by decide)
        · exact hlabel hc
      simpa using hne
  unfold unfenced
  rw [if_pos (by rw [List.append_assoc]; exact List.prefix_append _ _), hdrop]
  show Except.ok ((beforeLast fence (text ++ fence)).getD (text ++ fence)) = .ok text
  rw [beforeLast_append (by decide)]
  rfl

/-! ## A plan in JSON -/

def nameText (name : String) : Text := JsonText.scalars name.toList

def strJson (s : String) : JsonValue := .str (nameText s)

/-- `plan.model_dump(mode="json")`. -/
def EvidenceEntity.toJson (e : EvidenceEntity) : JsonValue :=
  .dict [(nameText "kind", strJson e.kind.value), (nameText "identifier", strJson e.identifier)]

def EvidencePlan.toJson (p : EvidencePlan) : JsonValue :=
  .dict [(nameText "scope", strJson p.scope.value), (nameText "entities", .list (p.entities.map EvidenceEntity.toJson)),
    (nameText "evidence_categories", .list (p.evidenceCategories.map fun category => strJson category.value)),
    (nameText "exhaustive", .bool p.exhaustive)]

/-- What a plan is that its model accepts, and that names no category twice. -/
structure Plannable (p : EvidencePlan) : Prop where
  some : p.evidenceCategories ≠ []
  once : p.evidenceCategories.Nodup
  identifiers : ∀ e ∈ p.entities, 1 ≤ e.identifier.length ∧ e.identifier.length ≤ 128

@[simp] theorem strOf_strJson (s : String) : strOf (strJson s) = some s := by
  show (JsonText.characters (JsonText.scalars s.toList)).map String.ofList = some s
  rw [JsonText.characters_scalars]
  exact congrArg some String.ofList_toList

@[simp] theorem strJson_joined (s : String) : (strJson s).joined = strJson s :=
  congrArg JsonValue.str (JsonText.join_scalars _)

@[simp] theorem strJson_floatless (s : String) : (strJson s).isFloatless = true := rfl

@[simp] theorem join_nameText (name : String) : JsonText.join (nameText name) = nameText name := JsonText.join_scalars _

theorem joinedItems_map {α : Type} {f : α → JsonValue} (h : ∀ a, (f a).joined = f a) (l : List α) :
    JsonText.joinedItems (l.map f) = l.map f := by
  induction l with
  | nil => rfl
  | cons a l ih => rw [List.map_cons, JsonText.joinedItems, h, ih]

theorem itemsFloatless_map {α : Type} {f : α → JsonValue} (h : ∀ a, (f a).isFloatless = true) (l : List α) :
    JsonText.itemsFloatless (l.map f) = true := by
  induction l with
  | nil => rfl
  | cons a l ih => rw [List.map_cons, JsonText.itemsFloatless, h, ih]; rfl

theorem entity_joined (e : EvidenceEntity) : e.toJson.joined = e.toJson := by
  simp only [EvidenceEntity.toJson, JsonValue.joined, JsonText.joinedMembers, join_nameText, strJson_joined]

theorem entity_floatless (e : EvidenceEntity) : e.toJson.isFloatless = true := rfl

theorem plan_joined (p : EvidencePlan) : p.toJson.joined = p.toJson := by
  simp only [EvidencePlan.toJson, JsonValue.joined, JsonText.joinedMembers, join_nameText, strJson_joined,
    joinedItems_map entity_joined, joinedItems_map fun category : EvidenceCategory => strJson_joined category.value]

theorem plan_floatless (p : EvidencePlan) : p.toJson.isFloatless = true := by
  simp only [EvidencePlan.toJson, JsonValue.isFloatless, JsonText.membersFloatless, strJson_floatless,
    itemsFloatless_map entity_floatless, Bool.and_self,
    itemsFloatless_map fun category : EvidenceCategory => strJson_floatless category.value]

/-! ## Every plan is read back -/

theorem ofValue_scope (scope : EvidenceScope) :
    ofValue EvidenceScope.every EvidenceScope.value scope.value = some scope := by
  cases scope <;> decide

theorem ofValue_kind (kind : EntityKind) : ofValue EntityKind.every EntityKind.value kind.value = some kind := by
  cases kind <;> decide

theorem ofValue_category (category : EvidenceCategory) :
    ofValue EvidenceCategory.every EvidenceCategory.value category.value = some category := by
  cases category <;> decide

theorem mapM_some {α β : Type} {f : β → Option α} {g : α → β} {l : List α} (h : ∀ a ∈ l, f (g a) = some a) :
    (l.map g).mapM f = some l := by
  induction l with
  | nil => rfl
  | cons a l ih =>
    rw [List.map_cons, List.mapM_cons, h a List.mem_cons_self, ih fun b hb => h b (List.mem_cons_of_mem a hb)]
    rfl

theorem entityOf_toJson {e : EvidenceEntity} (h : 1 ≤ e.identifier.length ∧ e.identifier.length ≤ 128) :
    entityOf e.toJson = some e := by
  have hmembers : membersOf ["kind", "identifier"] e.toJson =
      some fun name => [(nameText "identifier", strJson e.identifier), (nameText "kind", strJson e.kind.value)].lookup
        (JsonText.scalars name.toList) := rfl
  have hkind : [(nameText "identifier", strJson e.identifier), (nameText "kind", strJson e.kind.value)].lookup
      (JsonText.scalars "kind".toList) = some (strJson e.kind.value) := rfl
  have hidentifier : [(nameText "identifier", strJson e.identifier), (nameText "kind", strJson e.kind.value)].lookup
      (JsonText.scalars "identifier".toList) = some (strJson e.identifier) := rfl
  simp only [entityOf, hmembers, Option.bind_eq_bind, Option.bind_some, hkind, hidentifier, strOf_strJson, ofValue_kind, h]
  rfl

section
variable [Unicode]

theorem planOf_toJson {p : EvidencePlan} (h : Plannable p) : planOf p.toJson = some p := by
  have hentities : entitiesOf (.list (p.entities.map EvidenceEntity.toJson)) = some p.entities :=
    mapM_some fun e he => entityOf_toJson (h.identifiers e he)
  have hcategories : categoriesOf (.list (p.evidenceCategories.map fun category => strJson category.value)) =
      some p.evidenceCategories :=
    mapM_some fun category _ => by rw [categoryOf, strOf_strJson]; exact ofValue_category category
  -- the members as they are looked up, the last one first
  let members : List (Text × JsonValue) := [(nameText "exhaustive", .bool p.exhaustive),
    (nameText "evidence_categories", .list (p.evidenceCategories.map fun category => strJson category.value)),
    (nameText "entities", .list (p.entities.map EvidenceEntity.toJson)), (nameText "scope", strJson p.scope.value)]
  have hmembers : membersOf ["scope", "entities", "evidence_categories", "exhaustive"] p.toJson =
      some fun name => members.lookup (JsonText.scalars name.toList) := rfl
  have hscope : members.lookup (JsonText.scalars "scope".toList) = some (strJson p.scope.value) := rfl
  have hentity : members.lookup (JsonText.scalars "entities".toList) =
      some (.list (p.entities.map EvidenceEntity.toJson)) := rfl
  have hcategory : members.lookup (JsonText.scalars "evidence_categories".toList) =
      some (.list (p.evidenceCategories.map fun category => strJson category.value)) := rfl
  have hexhaustive : members.lookup (JsonText.scalars "exhaustive".toList) = some (.bool p.exhaustive) := rfl
  simp only [planOf, hmembers, Option.bind_eq_bind, Option.bind_some, hscope, hentity, hcategory, hexhaustive, strOf_strJson,
    ofValue_scope, orDefault, hentities, hcategories, boolOf, h.some, if_false]

omit [Unicode] in
/-- What a plan is written as, with a line break or nothing behind it. -/
theorem loads_plan (p : EvidencePlan) {after : List Char} (hafter : after = [] ∨ after = ['\n']) :
    JsonText.loads (JsonText.dumps p.toJson ++ after) = some p.toJson := by
  have hends : JsonText.Ends after := by
    rcases hafter with rfl | rfl
    · exact JsonText.ends_nil
    · intro c hc
      cases hc
      exact ⟨rfl, by decide, by decide, by decide⟩
  have hscan := JsonText.scanValue_dumps p.toJson (2 * (JsonText.dumps p.toJson ++ after).length + 1) after (plan_floatless p)
    (by rw [List.length_append]; omega) hends
  unfold JsonText.loads
  rw [JsonText.skip_dumps (plan_floatless p), hscan, plan_joined]
  rcases hafter with rfl | rfl
  · rfl
  · rfl

omit [Unicode] in
/-- A text that begins and ends with no blank keeps its blanks. -/
theorem stripBy_between {p : Char → Bool} {first last : Char} {text : List Char} (hfirst : p first = false)
    (hlast : p last = false) :
    (stripBy p (String.ofList (first :: text ++ [last]))).toList = first :: text ++ [last] := by
  unfold stripBy
  rw [String.toList_ofList, String.toList_ofList, List.cons_append, List.dropWhile_cons_of_neg (by simp [hfirst]),
    ← List.cons_append, List.reverse_append, List.reverse_singleton, List.singleton_append,
    List.dropWhile_cons_of_neg (by simp [hlast]), List.reverse_cons, List.reverse_reverse]

/-- A plan as the model may write it: by itself, or in a fence with a label. -/
def written (p : EvidencePlan) : Option (List Char) → List Char
  | none => JsonText.dumps p.toJson
  | some label => fence ++ label ++ '\n' :: (JsonText.dumps p.toJson ++ '\n' :: fence)

omit [Unicode] in
theorem dumps_plan (p : EvidencePlan) : ∃ text, JsonText.dumps p.toJson = '\x7b' :: text ++ ['\x7d'] := ⟨_, rfl⟩

theorem decodePlan_written {p : EvidencePlan} (h : Plannable p) {after : List Char}
    (hafter : after = [] ∨ after = ['\n']) :
    decodePlan (JsonText.dumps p.toJson ++ after) = p := by
  have hplan : (JsonText.loads (JsonText.dumps p.toJson ++ after)).bind planOf = some p := by
    rw [loads_plan p hafter]
    exact planOf_toJson h
  rw [decodePlan, hplan]
  exact if_pos h.once

theorem readPlan_written (tables : NumberTables) {p : EvidencePlan} (h : Plannable p) {label : Option (List Char)}
    (hlabel : ∀ l ∈ label, '\n' ∉ l) : readPlan (String.ofList (written p label)) = .ok p := by
  obtain ⟨text, htext⟩ := dumps_plan p
  cases label with
  | none =>
    have hstrip : (strip (String.ofList (written p none))).toList = JsonText.dumps p.toJson := by
      rw [strip, written, htext]
      exact stripBy_between (tables.space_ascii _ (by decide) (by decide)) (tables.space_ascii _ (by decide) (by decide))
    have hbare : unfenced (JsonText.dumps p.toJson) = .ok (JsonText.dumps p.toJson) := by
      rw [htext]
      exact if_neg fun hpre => by
        obtain ⟨after, hafter⟩ := hpre
        cases hafter
    have hdecoded := decodePlan_written h (.inl rfl)
    rw [List.append_nil] at hdecoded
    rw [readPlan, hstrip, hbare, Except.map, hdecoded]
  | some label =>
    have hshape : written p (some label) =
        tick :: ([tick, tick] ++ label ++ '\n' :: (JsonText.dumps p.toJson ++ ['\n', tick, tick])) ++ [tick] := by
      simp [written, fence]
    have hstrip : (strip (String.ofList (written p (some label)))).toList = written p (some label) := by
      rw [strip, hshape]
      exact stripBy_between (tables.space_ascii _ (by decide) (by decide)) (tables.space_ascii _ (by decide) (by decide))
    have hbody : unfenced (written p (some label)) = .ok (JsonText.dumps p.toJson ++ ['\n']) := by
      rw [written, List.append_cons (JsonText.dumps p.toJson) '\n' fence]
      exact unfenced_fenced (hlabel label rfl)
    rw [readPlan, hstrip, hbody, Except.map, decodePlan_written h (.inr rfl)]

/-! ## Every call -/

/-- The model was out of reach. -/
def Outage (reply : Except Fault String) : Prop := ∃ fault, reply = .error fault ∧ fault.isOutage = true

variable {planner : BedrockEvidencePlanner}

/-- Outages that are not the last attempts are waited out. -/
theorem refused_outages (planner : BedrockEvidencePlanner) {outages : List (Except Fault String)}
    (h : ∀ reply ∈ outages, Outage reply) :
    ∀ {i}, i + outages.length < planner.maxAttempts.1 →
      Refused (· < planner.maxAttempts.1) planner.step i () outages (i + outages.length) () := by
  induction outages with
  | nil => intro i _; exact .none i ()
  | cons reply outages ih =>
    intro i hi
    rw [List.length_cons] at hi
    obtain ⟨fault, rfl, hfault⟩ := h reply List.mem_cons_self
    have hrest := ih (fun reply hr => h reply (List.mem_cons_of_mem _ hr)) (i := i + 1) (by omega)
    rw [show i + 1 + outages.length = i + (outages.length + 1) by omega] at hrest
    refine .cons (decide_eq_true (by omega)) ?_ hrest
    rw [BedrockEvidencePlanner.step, if_pos hfault, if_pos (by omega)]

theorem refused_iff {first : List (Except Fault String)} {i j : Nat} {s s' : Unit}
    (h : Refused (· < planner.maxAttempts.1) planner.step i s first j s') :
    j = i + first.length ∧ (∀ reply ∈ first, Outage reply) ∧ (first ≠ [] → j < planner.maxAttempts.1) := by
  induction h with
  | none i s => exact ⟨rfl, fun reply hr => (by cases hr), fun hne => absurd rfl hne⟩
  | @cons i j s s' s'' reply rest hmore hagain _ ih =>
    obtain ⟨hj, hrest, hlt⟩ := ih
    unfold BedrockEvidencePlanner.step at hagain
    have hreply : Outage reply ∧ i + 1 < planner.maxAttempts.1 := by
      cases reply with
      | ok raw => cases hagain
      | error fault =>
        dsimp only at hagain
        split at hagain
        · rename_i hfault
          split at hagain
          · rename_i hleft
            exact ⟨⟨fault, rfl, hfault⟩, hleft⟩
          · cases hagain
        · split at hagain
          · cases hagain
          · cases hagain
    refine ⟨by rw [hj, List.length_cons]; omega, ?_, fun _ => ?_⟩
    · intro reply' hr
      rcases List.mem_cons.mp hr with rfl | hr
      · exact hreply.1
      · exact hrest reply' hr
    · cases rest with
      | nil => rw [hj, List.length_nil]; exact hreply.2
      | cons _ _ => exact hlt (by simp)

/-- A plan in JSON is the plan that is returned, fenced or not, after any outages that leave an attempt. -/
theorem plan_reads_back (tables : NumberTables) {p : EvidencePlan} (h : Plannable p) {label : Option (List Char)}
    (hlabel : ∀ l ∈ label, '\n' ∉ l) {outages : List (Except Fault String)} (houtages : ∀ reply ∈ outages, Outage reply)
    (hlength : outages.length < planner.maxAttempts.1) (rest : List (Except Fault String)) :
    planner.plan (outages ++ .ok (String.ofList (written p label)) :: rest) = .done (.ok p) rest := by
  have hrefused := refused_outages planner houtages (i := 0) (by omega)
  refine retry_done_iff.mpr ⟨outages, _, _, _, rfl, hrefused, decide_eq_true (by omega), ?_⟩
  rw [BedrockEvidencePlanner.step, readPlan_written tables h hlabel]

omit [Unicode] in
theorem conservative_plannable : conservativeReadPlan.evidenceCategories ≠ [] ∧
    conservativeReadPlan.evidenceCategories.Nodup := by decide

theorem planOf_some {value : JsonValue} {p : EvidencePlan} (h : planOf value = some p) : p.evidenceCategories ≠ [] := by
  simp only [planOf, Option.bind_eq_bind, Option.bind_eq_some_iff] at h
  obtain ⟨_, _, _, _, _, _, _, _, _, _, categories, _, _, _, hlast⟩ := h
  split at hlast
  · cases hlast
  · rename_i hne
    cases hlast
    exact hne

theorem decodePlan_plannable (value : List Char) : (decodePlan value).evidenceCategories ≠ [] ∧
    (decodePlan value).evidenceCategories.Nodup := by
  unfold decodePlan
  cases hplan : (JsonText.loads value).bind planOf with
  | none => exact conservative_plannable
  | some plan =>
    dsimp only
    split
    · rename_i hnodup
      obtain ⟨_, _, hvalue⟩ := Option.bind_eq_some_iff.mp hplan
      exact ⟨planOf_some hvalue, hnodup⟩
    · exact conservative_plannable

/-- What a call has to say of the tape it took, by how it ended. -/
def Asked (planner : BedrockEvidencePlanner) (tape : List (Except Fault String)) :
    Ended Unit (Except Fault String) (Except Fault EvidencePlan) → Prop
  | .exhausted _ _ => False
  | .waiting _ => tape.length < planner.maxAttempts.1 ∧ ∀ reply ∈ tape, Outage reply
  | .done result rest => ∃ outages reply, tape = outages ++ reply :: rest ∧ outages.length < planner.maxAttempts.1 ∧
      (∀ o ∈ outages, Outage o) ∧ match result with
        | .ok plan => ¬ Outage reply ∧ plan.evidenceCategories ≠ [] ∧ plan.evidenceCategories.Nodup
        | .error fault =>
          (reply = .error fault ∧ fault.isValueError = false ∧
            (fault.isOutage = true → outages.length + 1 = planner.maxAttempts.1)) ∨
          ∃ raw, reply = .ok raw ∧ fence <+: (strip raw).toList ∧ '\n' ∉ (strip raw).toList

theorem readPlan_error {raw : String} {fault : Fault} (h : readPlan raw = .error fault) :
    fence <+: (strip raw).toList ∧ '\n' ∉ (strip raw).toList := by
  unfold readPlan unfenced at h
  split at h
  · rename_i hfence
    refine ⟨hfence, fun hline => ?_⟩
    cases hdrop : (strip raw).toList.dropWhile (· != '\n') with
    | nil =>
      have := List.dropWhile_eq_nil_iff.mp hdrop '\n' hline
      simp at this
    | cons c cs =>
      rw [hdrop] at h
      cases h
  · cases h

/-- Every plan that is returned names categories and none twice; the model is asked again only after outages, and no
    more often than it may be; the last of them is raised, and what is no outage, and nothing that is no value. -/
theorem plan_is_readable (planner : BedrockEvidencePlanner) (tape : List (Except Fault String)) :
    Asked planner tape (planner.plan tape) := by
  cases hplan : planner.plan tape with
  | exhausted s rest =>
    obtain ⟨first, j, _, hrefused, hmore⟩ := retry_exhausted_iff.mp hplan
    obtain ⟨hj, _, hlt⟩ := refused_iff hrefused
    have hnot : ¬ j < planner.maxAttempts.1 := by simpa using hmore
    cases first with
    | nil =>
      have := planner.maxAttempts.2
      rw [List.length_nil] at hj
      omega
    | cons _ _ => exact hnot (hlt (by simp))
  | waiting s =>
    obtain ⟨j, hrefused⟩ := taken_of_waiting hplan
    have htape := taken_rest (· < planner.maxAttempts.1) planner.step tape 0 ()
    rw [show (retry (· < planner.maxAttempts.1) planner.step 0 () tape).rest = [] from congrArg Ended.rest hplan,
      List.append_nil] at htape
    rw [htape] at hrefused
    obtain ⟨hj, houtages, hlt⟩ := refused_iff hrefused
    refine ⟨?_, houtages⟩
    by_cases hnil : tape = []
    · rw [hnil]
      exact planner.maxAttempts.2
    · have := hlt hnil
      omega
  | done result rest =>
    obtain ⟨outages, reply, j, s', htape, hrefused, hmore, hdone⟩ := retry_done_iff.mp hplan
    obtain ⟨hj, houtages, _⟩ := refused_iff hrefused
    have hlt : j < planner.maxAttempts.1 := by simpa using hmore
    refine ⟨outages, reply, htape, by omega, houtages, ?_⟩
    unfold BedrockEvidencePlanner.step at hdone
    cases reply with
    | ok raw =>
      obtain rfl := Next.done.inj hdone
      cases hread : readPlan raw with
      | ok plan =>
        have hno : ¬ Outage (.ok raw) := by
          intro h
          obtain ⟨fault, h, _⟩ := h
          cases h
        refine ⟨hno, ?_⟩
        unfold readPlan at hread
        cases hvalue : unfenced (strip raw).toList with
        | error fault => rw [hvalue] at hread; cases hread
        | ok value =>
          rw [hvalue] at hread
          cases hread
          exact decodePlan_plannable value
      | error fault => exact .inr ⟨raw, rfl, readPlan_error hread⟩
    | error fault =>
      dsimp only at hdone
      split at hdone
      · rename_i hout
        split at hdone
        · cases hdone
        · rename_i hlast
          obtain rfl := Next.done.inj hdone
          refine .inl ⟨rfl, ?_, fun _ => by omega⟩
          cases fault with
          | raised error =>
            cases error with
            | permissionError message => rfl
            | _ => cases hout
          | _ => rfl
      · rename_i hout
        split at hdone
        · obtain rfl := Next.done.inj hdone
          refine ⟨fun h => ?_, conservative_plannable⟩
          obtain ⟨fault', h, hfault'⟩ := h
          cases h
          exact hout hfault'
        · rename_i hvalue
          obtain rfl := Next.done.inj hdone
          exact .inl ⟨rfl, by simpa using hvalue, fun h => absurd h hout⟩

end

/-! ## A fenced plan after an outage -/

section

attribute [local instance] Unicode.ascii

theorem asciiNumbers : NumberTables where
  decimal_ascii c _ := rfl
  space_ascii c h h' := by
    simp only [Unicode.isSpace, Char.isWhitespace, Bool.or_eq_false_iff, decide_eq_false_iff_not]
    refine ⟨⟨⟨?_, ?_⟩, ?_⟩, ?_⟩
    all_goals
      rintro rfl
      exact absurd h (by decide)

theorem twoAttempts_pos : 1 ≤ 2 := by decide

def twoAttempts : BedrockEvidencePlanner := ⟨⟨2, twoAttempts_pos⟩⟩

def dueSoonPlan : EvidencePlan := ⟨.employee, [⟨.employee, "EMP-002"⟩], [.deadlines, .jiraIssues], true⟩

theorem dueSoonPlan_plannable : Plannable dueSoonPlan where
  some := by decide
  once := by decide
  identifiers := by
    intro e he
    obtain rfl := List.mem_singleton.mp he
    exact ⟨Nat.le_of_ble_eq_true rfl, Nat.le_of_ble_eq_true rfl⟩

theorem jsonLabel : ∀ l ∈ some "json".toList, '\n' ∉ l := by
  intro l hl
  obtain rfl := Option.some.inj hl
  decide

theorem fenced_plan_after_outage :
    twoAttempts.plan [.error (.timeoutError "slow"), .ok (String.ofList (written dueSoonPlan (some "json".toList)))] =
      .done (.ok dueSoonPlan) [] :=
  plan_reads_back asciiNumbers dueSoonPlan_plannable jsonLabel
    (by
      intro reply hr
      obtain rfl := List.mem_singleton.mp hr
      exact ⟨.timeoutError "slow", rfl, rfl⟩)
    (Nat.le_of_ble_eq_true rfl) []

end

end WorkforceRisk.Evidence

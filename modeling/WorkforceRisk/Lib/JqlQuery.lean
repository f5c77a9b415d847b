/-
  WorkforceRisk.Lib.JqlQuery — what a query of Jira says, and whether it stays in a project.

  The grammar is a relation between tokens and a formula of clauses (`Parses`, `Query`). Of
  what a clause asks, only the project of an issue is told: a name stands for a project, if
  it does for one (`Site`), and a project's own key for the project. All else is what an
  issue says of it, which is never a clause and its negation.

  A query is confined to a project if it finds no issue of another, wherever it is asked
  (`Confined`). A way of it is shut (`Shut`) if it asks for both a clause and its negation,
  or if a clause of it wants one of some projects and all of these but the one are ruled out.
  Proved: a query is confined exactly if every way of it is shut (`confined_iff`); and one
  that starts with the project and has no OR is (`confined_of_leading`).
-/

import WorkforceRisk.Lib.Jql

namespace WorkforceRisk.Lib.Jql

/-! ## Clauses -/

inductive Relation where
  | equals
  | contains
  | less
  | atMost
  deriving DecidableEq

inductive Value where
  | text (t : List Char)
  | empty
  | call (name : List Char) (arguments : List (List Char))
  deriving DecidableEq

/-- A clause on a field, whose name is in small letters. -/
inductive Clause where
  | compare (field : List Char) (relation : Relation) (value : Value)
  | member (field : List Char) (values : List Value)
  /-- What the field was, or how it changed. -/
  | history (field : List Char) (changed : Bool) (tail : List Token)
  deriving DecidableEq

def lower (w : List Char) : List Char := w.map Char.toLower

def upper (w : List Char) : List Char := w.map Char.toUpper

def isKeyword (keyword : String) : Token → Bool
  | .word w => lower w == keyword.toList
  | _ => false

def keywords : List String := ["and", "or", "not", "in", "is", "was", "changed", "empty", "null", "order", "by"]

/-- A field, a value or a function: a text, or a word that is no keyword. -/
def nameOf : Token → Option (List Char)
  | .text t => some t
  | .word w => if keywords.any fun keyword => lower w == keyword.toList then none else some w
  | _ => none

/-- What an operator asks, and whether for its contrary. -/
def operatorOf : Token → Option (Relation × Bool)
  | .equals => some (.equals, true)
  | .notEquals => some (.equals, false)
  | .contains => some (.contains, true)
  | .notContains => some (.contains, false)
  | .less => some (.less, true)
  | .atLeast => some (.less, false)
  | .atMost => some (.atMost, true)
  | .greater => some (.atMost, false)
  | _ => none

def signed (sign : Bool) (c : Clause) : Formula Clause := if sign then .clause c else .not (.clause c)

/-! ## The grammar -/

inductive Arguments : List Token → List (List Char) → Prop
  | one {t : Token} {a : List Char} (h : nameOf t = some a) : Arguments [t] [a]
  | more {t : Token} {a : List Char} {ts : List Token} {as : List (List Char)} (h : nameOf t = some a)
      (hmore : Arguments ts as) : Arguments (t :: .comma :: ts) (a :: as)

inductive IsValue : List Token → Value → Prop
  | text {t : Token} {a : List Char} (h : nameOf t = some a) : IsValue [t] (.text a)
  | empty {t : Token} (h : isKeyword "empty" t = true ∨ isKeyword "null" t = true) : IsValue [t] .empty
  | call {t : Token} {f : List Char} (h : nameOf t = some f) : IsValue [t, .opening, .closing] (.call f [])
  | callWith {t : Token} {f : List Char} {ts : List Token} {as : List (List Char)} (h : nameOf t = some f)
      (harguments : Arguments ts as) : IsValue (t :: .opening :: ts ++ [.closing]) (.call f as)

inductive Values : List Token → List Value → Prop
  | one {ts : List Token} {v : Value} (h : IsValue ts v) : Values ts [v]
  | more {ts us : List Token} {v : Value} {vs : List Value} (h : IsValue ts v) (hmore : Values us vs) :
      Values (ts ++ .comma :: us) (v :: vs)

/-- A list, or a function that gives one. -/
inductive Listed : List Token → List Value → Prop
  | list {ts : List Token} {vs : List Value} (h : Values ts vs) : Listed (.opening :: ts ++ [.closing]) vs
  | call {ts : List Token} {f : List Char} {as : List (List Char)} (h : IsValue ts (.call f as)) :
      Listed ts [.call f as]

def historyWords : List String := ["in", "after", "before", "on", "during", "by", "from", "to"]

/-- What follows WAS or CHANGED. -/
inductive Tail : List Token → Prop
  | nil : Tail []
  | word {t : Token} {ts : List Token} (h : historyWords.any (isKeyword · t) = true) (hmore : Tail ts) : Tail (t :: ts)
  | value {ts us : List Token} {v : Value} (h : IsValue ts v) (hmore : Tail us) : Tail (ts ++ us)
  | list {ts us : List Token} {vs : List Value} (h : Values ts vs) (hmore : Tail us) :
      Tail (.opening :: ts ++ .closing :: us)

/-- One clause, of a field `t`. -/
inductive Terminal : List Token → Formula Clause → Prop
  | compare {t operator : Token} {field : List Char} {relation : Relation} {sign : Bool} {ts : List Token} {v : Value}
      (hfield : nameOf t = some field) (hoperator : operatorOf operator = some (relation, sign)) (hvalue : IsValue ts v) :
      Terminal (t :: operator :: ts) (signed sign (.compare (lower field) relation v))
  | isEmpty {t i e : Token} {field : List Char} (hfield : nameOf t = some field) (his : isKeyword "is" i = true)
      (hempty : IsValue [e] .empty) : Terminal [t, i, e] (.clause (.compare (lower field) .equals .empty))
  | isNotEmpty {t i n e : Token} {field : List Char} (hfield : nameOf t = some field) (his : isKeyword "is" i = true)
      (hnot : isKeyword "not" n = true) (hempty : IsValue [e] .empty) :
      Terminal [t, i, n, e] (.not (.clause (.compare (lower field) .equals .empty)))
  | member {t i : Token} {field : List Char} {ts : List Token} {vs : List Value} (hfield : nameOf t = some field)
      (hin : isKeyword "in" i = true) (hlisted : Listed ts vs) :
      Terminal (t :: i :: ts) (.clause (.member (lower field) vs))
  | notMember {t n i : Token} {field : List Char} {ts : List Token} {vs : List Value} (hfield : nameOf t = some field)
      (hnot : isKeyword "not" n = true) (hin : isKeyword "in" i = true) (hlisted : Listed ts vs) :
      Terminal (t :: n :: i :: ts) (.not (.clause (.member (lower field) vs)))
  | was {t w : Token} {field : List Char} {ts : List Token} (hfield : nameOf t = some field)
      (hwas : isKeyword "was" w = true) (htail : Tail ts) :
      Terminal (t :: w :: ts) (.clause (.history (lower field) false ts))
  | wasNot {t w n : Token} {field : List Char} {ts : List Token} (hfield : nameOf t = some field)
      (hwas : isKeyword "was" w = true) (hnot : isKeyword "not" n = true) (htail : Tail ts) :
      Terminal (t :: w :: n :: ts) (.not (.clause (.history (lower field) false ts)))
  | changed {t c : Token} {field : List Char} {ts : List Token} (hfield : nameOf t = some field)
      (hchanged : isKeyword "changed" c = true) (htail : Tail ts) :
      Terminal (t :: c :: ts) (.clause (.history (lower field) true ts))

inductive Level where
  | disjunction
  | conjunction
  | negation

inductive Parses : Level → List Token → Formula Clause → Prop
  | either {ts us : List Token} {t : Token} {f g : Formula Clause} (hf : Parses .conjunction ts f)
      (hor : isKeyword "or" t = true) (hg : Parses .disjunction us g) : Parses .disjunction (ts ++ t :: us) (f.or g)
  | conjunction {ts : List Token} {f : Formula Clause} (hf : Parses .conjunction ts f) : Parses .disjunction ts f
  | both {ts us : List Token} {t : Token} {f g : Formula Clause} (hf : Parses .negation ts f)
      (hand : isKeyword "and" t = true) (hg : Parses .conjunction us g) : Parses .conjunction (ts ++ t :: us) (f.and g)
  | negation {ts : List Token} {f : Formula Clause} (hf : Parses .negation ts f) : Parses .conjunction ts f
  | not {t : Token} {ts : List Token} {f : Formula Clause} (hnot : isKeyword "not" t = true)
      (hf : Parses .negation ts f) : Parses .negation (t :: ts) f.not
  | parentheses {ts : List Token} {f : Formula Clause} (hf : Parses .disjunction ts f) :
      Parses .negation (.opening :: ts ++ [.closing]) f
  | terminal {ts : List Token} {f : Formula Clause} (hf : Terminal ts f) : Parses .negation ts f

inductive Sorts : List Token → Prop
  | one {t : Token} {field : List Char} {ts : List Token} (h : nameOf t = some field) (hdirection : ts = [] ∨
      ∃ d, ts = [d] ∧ (isKeyword "asc" d = true ∨ isKeyword "desc" d = true)) : Sorts (t :: ts)
  | more {ts us : List Token} (h : Sorts ts) (hmore : Sorts us) : Sorts (ts ++ .comma :: us)

inductive Ordered : List Token → Prop
  | nil : Ordered []
  | orderBy {o b : Token} {ts : List Token} (horder : isKeyword "order" o = true) (hby : isKeyword "by" b = true)
      (hsorts : Sorts ts) : Ordered (o :: b :: ts)

/-- A query finds all issues, or those that a formula is true of. -/
inductive Query : List Token → Option (Formula Clause) → Prop
  | all {us : List Token} (h : Ordered us) : Query us none
  | filtered {ts us : List Token} {f : Formula Clause} (hf : Parses .disjunction ts f) (h : Ordered us) :
      Query (ts ++ us) (some f)

def Reads (query : List Char) (filter : Option (Formula Clause)) : Prop :=
  ∃ tokens, lex query = some tokens ∧ Query tokens filter

/-! ## Issues -/

/-- The key of the project that a name, in capital letters, stands for. -/
abbrev Site := List Char → Option (List Char)

/-- An issue's project, and the clauses on other things that it meets, or whose contrary it does. -/
structure Issue where
  project : List Char
  meets : Clause → Bool → Prop
  meets_ok : ∀ c, ¬ (meets c true ∧ meets c false)

/-- The names that are given of projects, if no function gives them. -/
def namesOf : List Value → Option (List (List Char))
  | [] => some []
  | .text t :: values => (namesOf values).map (upper t :: ·)
  | .empty :: values => namesOf values
  | .call _ _ :: _ => none

/-- The projects that a clause wants one of. -/
def projectNames : Clause → Option (List (List Char))
  | .compare field relation value =>
    if field = "project".toList ∧ relation = .equals then namesOf [value] else none
  | .member field values => if field = "project".toList then namesOf values else none
  | .history _ _ _ => none

def Asked (site : Site) (issue : Issue) (c : Clause) (sign : Bool) : Prop :=
  match projectNames c with
  | some names => (∃ name ∈ names, site name = some issue.project) ↔ sign = true
  | none => issue.meets c sign

/-- Whether a query finds an issue. -/
def Matches (site : Site) (filter : Option (Formula Clause)) (issue : Issue) : Prop :=
  ∀ f ∈ filter, f.Holds (Asked site issue) true

/-- A query finds no issue of another project, on any site where the project's key is its own. -/
def Confined (project query : List Char) : Prop :=
  ∀ filter, Reads query filter → ∀ site : Site, site project = some project →
    ∀ issue, Matches site filter issue → issue.project = project

/-! ## Ways that are shut -/

/-- A way rules a project out. -/
def RulesOut (way : Formula.Way Clause) (name : List Char) : Prop :=
  ∃ c names, (c, false) ∈ way ∧ projectNames c = some names ∧ name ∈ names

inductive Shut (project : List Char) (way : Formula.Way Clause) : Prop
  | contrary (c : Clause) (hnames : projectNames c = none) (htrue : (c, true) ∈ way) (hfalse : (c, false) ∈ way)
  | project (c : Clause) (names : List (List Char)) (htrue : (c, true) ∈ way) (hnames : projectNames c = some names)
      (hothers : ∀ name ∈ names, name = project ∨ RulesOut way name)

variable {project : List Char} {way : Formula.Way Clause} {site : Site} {issue : Issue}

theorem asked_true {c : Clause} {names : List (List Char)} (hnames : projectNames c = some names) :
    Asked site issue c true ↔ ∃ name ∈ names, site name = some issue.project := by
  unfold Asked
  rw [hnames]
  exact iff_true_right rfl

theorem asked_false {c : Clause} {names : List (List Char)} (hnames : projectNames c = some names) :
    Asked site issue c false ↔ ∀ name ∈ names, site name ≠ some issue.project := by
  unfold Asked
  rw [hnames]
  simp

theorem asked_other {c : Clause} {sign : Bool} (hnames : projectNames c = none) :
    Asked site issue c sign ↔ issue.meets c sign := by
  unfold Asked
  rw [hnames]

/-- What meets a way that is shut is in the project. -/
theorem Shut.project_eq (h : Shut project way) (hsite : site project = some project)
    (hmet : Formula.Met (Asked site issue) way) : issue.project = project := by
  cases h with
  | contrary c hnames htrue hfalse =>
    exact absurd ⟨(asked_other hnames).mp (hmet _ htrue), (asked_other hnames).mp (hmet _ hfalse)⟩ (issue.meets_ok c)
  | project c names htrue hnames hothers =>
    obtain ⟨name, hname, heq⟩ := (asked_true hnames).mp (hmet _ htrue)
    rcases hothers name hname with rfl | ⟨c', names', hfalse, hnames', hname'⟩
    · rw [hsite] at heq
      exact (Option.some.inj heq).symm
    · exact absurd heq ((asked_false hnames').mp (hmet _ hfalse) name hname')

/-- A project that is not the one. -/
theorem exists_other (project : List Char) : ∃ other : List Char, other ≠ project :=
  ⟨'A' :: project, fun h => by simpa using congrArg List.length h⟩

open Classical in
/-- A way that is not shut is met by an issue of another project. -/
theorem exists_met (h : ¬ Shut project way) : ∃ (site : Site) (issue : Issue), site project = some project ∧
    Formula.Met (Asked site issue) way ∧ issue.project ≠ project := by
  obtain ⟨other, hother⟩ := exists_other project
  -- A name that is not ruled out stands for the other project, and an issue meets what the way asks.
  let site : Site := fun name => if name = project then some project else if RulesOut way name then none else some other
  let issue : Issue := ⟨other, fun c sign => projectNames c = none ∧ (c, sign) ∈ way,
    fun c hboth => h (.contrary c hboth.1.1 hboth.1.2 hboth.2.2)⟩
  refine ⟨site, issue, if_pos rfl, ?_, hother⟩
  rintro ⟨c, sign⟩ hin
  cases hnames : projectNames c with
  | none => exact (asked_other hnames).mpr ⟨hnames, hin⟩
  | some names =>
    cases sign with
    | true =>
      have hopen : ¬ ∀ name ∈ names, name = project ∨ RulesOut way name := fun hothers =>
        h (.project c names hin hnames hothers)
      push Not at hopen
      obtain ⟨name, hname, hne, hout⟩ := hopen
      refine (asked_true hnames).mpr ⟨name, hname, ?_⟩
      show (if name = project then some project else if RulesOut way name then none else some other) = some other
      rw [if_neg hne, if_neg hout]
    | false =>
      refine (asked_false hnames).mpr fun name hname => ?_
      show (if name = project then some project else if RulesOut way name then none else some other) ≠ some other
      split
      · intro heq
        exact hother (Option.some.inj heq).symm
      · rw [if_pos ⟨c, names, hin, hnames, hname⟩]
        exact Option.some_ne_none _ ∘ Eq.symm

/-- A query stays in a project exactly if it asks for something and every way to it is shut. -/
theorem confined_iff {query : List Char} : Confined project query ↔
    ∀ filter, Reads query filter → ∃ f, filter = some f ∧ ∀ way ∈ f.ways true, Shut project way := by
  constructor
  · intro h filter hreads
    cases filter with
    | none =>
      obtain ⟨other, hother⟩ := exists_other project
      let issue : Issue := ⟨other, fun _ _ => False, fun _ hboth => hboth.1⟩
      exact absurd (h none hreads some rfl issue fun f hf => by cases hf) hother
    | some f =>
      refine ⟨f, rfl, fun way hway => ?_⟩
      by_contra hopen
      obtain ⟨site, issue, hsite, hmet, hne⟩ := exists_met hopen
      refine hne (h (some f) hreads site hsite issue ?_)
      rintro _ ⟨⟩
      exact Formula.holds_iff_way.mpr ⟨way, hway, hmet⟩
  · intro h filter hreads site hsite issue hmatches
    obtain ⟨f, rfl, hways⟩ := h filter hreads
    obtain ⟨way, hway, hmet⟩ := Formula.holds_iff_way.mp (hmatches f rfl)
    exact (hways way hway).project_eq hsite hmet

/-! ## A query that starts with the project -/

theorem not_keyword_of_name {t : Token} {a : List Char} (h : nameOf t = some a) {keyword : String}
    (hkeyword : keyword ∈ keywords) : isKeyword keyword t = false := by
  cases t with
  | word w =>
    rw [nameOf] at h
    split at h
    · cases h
    · rename_i hnone
      refine Bool.eq_false_iff.mpr fun hword => hnone (List.any_eq_true.mpr ⟨keyword, hkeyword, hword⟩)
  | _ => rfl

/-- A clause that starts with a field, `=` and a name is that comparison, unless the name is
    of a function. -/
theorem terminal_leading {ts us rest : List Token} {f : Formula Clause} {p v : Token} {field name : List Char}
    (h : Terminal ts f) (htokens : ts ++ us = p :: .equals :: v :: rest) (hfield : nameOf p = some field)
    (hname : nameOf v = some name) (hrest : rest.head? ≠ some .opening) :
    f = .clause (.compare (lower field) .equals (.text name)) := by
  cases h with
  | compare hfield' hoperator hvalue =>
    simp only [List.cons_append, List.cons.injEq] at htokens
    obtain ⟨rfl, rfl, htokens⟩ := htokens
    cases hoperator
    rw [hfield] at hfield'
    cases hfield'
    cases hvalue with
    | text hvalue =>
      obtain ⟨rfl, -⟩ := List.cons.inj htokens
      rw [hname] at hvalue
      cases hvalue
      rfl
    | empty hempty =>
      obtain ⟨rfl, -⟩ := List.cons.inj htokens
      rw [not_keyword_of_name hname (by decide), not_keyword_of_name hname (by decide)] at hempty
      simp at hempty
    | call _ =>
      obtain ⟨-, rfl⟩ := List.cons.inj htokens
      exact absurd rfl hrest
    | callWith _ _ =>
      obtain ⟨-, rfl⟩ := List.cons.inj htokens
      exact absurd rfl hrest
  | isEmpty _ hword _ | isNotEmpty _ hword _ _ | member _ hword _ | notMember _ hword _ _ | was _ hword _
  | wasNot _ hword _ _ | changed _ hword _ =>
    simp only [List.cons_append, List.cons.injEq] at htokens
    obtain ⟨-, rfl, -⟩ := htokens
    cases hword

/-- Without an OR, what a formula starts with is asked. -/
theorem parses_leading {level : Level} {ts : List Token} {f : Formula Clause} (h : Parses level ts f) {us rest : List Token}
    {p v : Token} {field name : List Char} (htokens : ts ++ us = p :: .equals :: v :: rest) (hfield : nameOf p = some field)
    (hname : nameOf v = some name) (hrest : rest.head? ≠ some .opening) (hor : ∀ t ∈ ts, isKeyword "or" t = false)
    {asked : Clause → Bool → Prop} (hholds : f.Holds asked true) : asked (.compare (lower field) .equals (.text name)) true := by
  induction h generalizing us with
  | either hf hor' hg _ _ =>
    rw [hor _ (List.mem_append_right _ List.mem_cons_self)] at hor'
    cases hor'
  | conjunction hf ih => exact ih htokens hor hholds
  | both hf hand hg ih _ =>
    rw [List.append_assoc] at htokens
    exact ih htokens (fun t ht => hor t (List.mem_append_left _ ht)) hholds.1
  | negation hf ih => exact ih htokens hor hholds
  | not hnot hf _ =>
    obtain ⟨rfl, -⟩ := List.cons.inj htokens
    rw [not_keyword_of_name hfield (by decide)] at hnot
    cases hnot
  | parentheses hf _ =>
    obtain ⟨rfl, -⟩ := List.cons.inj htokens
    cases hfield
  | terminal hf =>
    rw [terminal_leading hf htokens hfield hname hrest] at hholds
    exact hholds

/-- A query that starts with a project and has no OR is confined to it. -/
theorem confined_of_leading {query : List Char} {p v : Token} {field name : List Char}
    (hlex : ∀ tokens, lex query = some tokens → ∃ rest, tokens = p :: .equals :: v :: rest ∧ rest.head? ≠ some .opening)
    (hor : ∀ tokens, lex query = some tokens → ∀ t ∈ tokens, isKeyword "or" t = false)
    (hfield : nameOf p = some field) (hproject : lower field = "project".toList) (hname : nameOf v = some name)
    (hupper : upper name = project) : Confined project query := by
  rintro filter ⟨tokens, hquery, hfilter⟩ site hsite issue hmatches
  obtain ⟨rest, htokens, hrest⟩ := hlex tokens hquery
  cases hfilter with
  | all hordered =>
    cases hordered with
    | nil => cases htokens
    | orderBy horder _ _ =>
      obtain ⟨rfl, -⟩ := List.cons.inj htokens
      rw [not_keyword_of_name hfield (by decide)] at horder
      cases horder
  | filtered hf hordered =>
    have hasked := parses_leading hf htokens hfield hname hrest
      (fun t ht => hor _ hquery t (List.mem_append_left _ ht)) (hmatches _ rfl)
    have hnames : projectNames (.compare (lower field) .equals (.text name)) = some [upper name] := by
      rw [hproject]
      rfl
    obtain ⟨_, hin, heq⟩ := (asked_true hnames).mp hasked
    rw [List.mem_singleton.mp hin, hupper, hsite] at heq
    exact (Option.some.inj heq).symm

end WorkforceRisk.Lib.Jql

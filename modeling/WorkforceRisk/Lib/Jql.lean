/-
  WorkforceRisk.Lib.Jql — the query language of Jira.

  A text is cut into tokens one character at a time (`next`): words, texts in single or
  double quotes with what a backslash escapes in them, and operators. A word is a keyword
  in any case, if it is one; a word with an escape in it, and a text, never is. Of the
  tokens the grammar is a relation: clauses are combined with AND, OR, NOT and parentheses,
  and what is asked may be ordered at the end. A negative operator is the negation of the
  clause with the positive one.

  Proved: a word of a text stands there between characters that are of no word
  (`stands_of_mem_lex`).
-/

import WorkforceRisk.Lib.Signed

namespace WorkforceRisk.Lib.Jql

/-! ## Tokens -/

inductive Token where
  /-- What is written without quotes and without escapes. -/
  | word (w : List Char)
  | text (t : List Char)
  | equals
  | notEquals
  | contains
  | notContains
  | less
  | atMost
  | greater
  | atLeast
  | opening
  | closing
  | comma
  deriving DecidableEq

/-- Where a scan is: in an escape the quote of the text around it is told, if there is one. -/
inductive Scan where
  | between
  | word (read : List Char) (escaped : Bool)
  | quoted (quote : Char) (read : List Char)
  | escape (quote : Option Char) (read : List Char)
  | unicode (quote : Option Char) (read : List Char) (more value : Nat)
  | bang
  | less
  | greater

def isBlank (c : Char) : Bool := c ∈ [' ', '\t', '\n', '\r']

/-- The characters that are in a word only if they are escaped; the brackets of a custom
    field's name are not among them. -/
def reserved : List Char :=
  ['=', '!', '~', '<', '>', '(', ')', ',', '"', '\'', '\\', '|', '&', '\x7b', '\x7d', '*', '/', '%', '+', '^', '$', '#',
    '@', '?', ';']

def isWordChar (c : Char) : Bool := decide (32 < c.toNat) && !reserved.contains c

def wordToken (read : List Char) (escaped : Bool) : Token := if escaped then .text read else .word read

/-- What starts with a character. -/
def start (c : Char) : Option (List Token × Scan) :=
  if isBlank c then some ([], .between)
  else if isWordChar c then some ([], .word [c] false)
  else match c with
    | '"' => some ([], .quoted '"' [])
    | '\'' => some ([], .quoted '\'' [])
    | '\\' => some ([], .escape none [])
    | '=' => some ([.equals], .between)
    | '~' => some ([.contains], .between)
    | '(' => some ([.opening], .between)
    | ')' => some ([.closing], .between)
    | ',' => some ([.comma], .between)
    | '!' => some ([], .bang)
    | '<' => some ([], .less)
    | '>' => some ([], .greater)
    | _ => none

/-- What a character ends, and what starts with it. -/
def startAfter (token : Token) (c : Char) : Option (List Token × Scan) :=
  (start c).map fun started => (token :: started.1, started.2)

/-- Back in a word or in a text. -/
def resume (quote : Option Char) (read : List Char) : Scan :=
  match quote with
  | some q => .quoted q read
  | none => .word read true

def escapes : List (Char × Char) :=
  [('"', '"'), ('\'', '\''), ('\\', '\\'), (' ', ' '), ('t', '\t'), ('n', '\n'), ('r', '\r')]

def hexDigit (c : Char) : Option Nat :=
  if c.isDigit then some (c.toNat - 48)
  else if 'a' ≤ c.toLower ∧ c.toLower ≤ 'f' then some (c.toLower.toNat - 87)
  else none

def next : Scan → Char → Option (List Token × Scan)
  | .between, c => start c
  | .word read escaped, c =>
    if isWordChar c then some ([], .word (read ++ [c]) escaped)
    else if c = '\\' then some ([], .escape none read)
    else startAfter (wordToken read escaped) c
  | .quoted quote read, c =>
    if c = quote then some ([.text read], .between)
    else if c = '\\' then some ([], .escape (some quote) read)
    else some ([], .quoted quote (read ++ [c]))
  | .escape quote read, c =>
    if c = 'u' then some ([], .unicode quote read 3 0)
    else (escapes.lookup c).map fun e => ([], resume quote (read ++ [e]))
  | .unicode quote read more value, c => (hexDigit c).map fun d =>
    match more with
    | 0 => ([], resume quote (read ++ [Char.ofNat (16 * value + d)]))
    | more + 1 => ([], .unicode quote read more (16 * value + d))
  | .bang, c => if c = '=' then some ([.notEquals], .between) else if c = '~' then some ([.notContains], .between) else none
  | .less, c => if c = '=' then some ([.atMost], .between) else startAfter .less c
  | .greater, c => if c = '=' then some ([.atLeast], .between) else startAfter .greater c

def finish : Scan → Option (List Token)
  | .between => some []
  | .word read escaped => some [wordToken read escaped]
  | .less => some [.less]
  | .greater => some [.greater]
  | _ => none

/-- The tokens that end in a text, and where the scan is after it. -/
def scan : Scan → List Char → Option (List Token × Scan)
  | s, [] => some ([], s)
  | s, c :: text => (next s c).bind fun first => (scan first.2 text).map fun rest => (first.1 ++ rest.1, rest.2)

def lex (text : List Char) : Option (List Token) :=
  (scan .between text).bind fun scanned => (finish scanned.2).map (scanned.1 ++ ·)

example : lex "cf[7] != 'a\\'b' and x>=-7d".toList = some [.word "cf[7]".toList, .notEquals, .text "a'b".toList,
    .word "and".toList, .word "x".toList, .atLeast, .word "-7d".toList] := by decide +kernel

/-! ## Words of a text -/

/-- A word stands in a text between characters that are of no word. -/
def Stands (text w : List Char) : Prop :=
  ∃ before after, text = before ++ w ++ after ∧ before.getLast?.any isWordChar = false ∧
    after.head?.any isWordChar = false

/-- Where a scan is after a text: no word is going on, or a word that stands there so far,
    or what will be no word. -/
inductive After : List Char → Scan → Prop
  | between {past : List Char} (h : past.getLast?.any isWordChar = false) : After past .between
  | bang {past : List Char} (h : past.getLast?.any isWordChar = false) : After past .bang
  | less {past : List Char} (h : past.getLast?.any isWordChar = false) : After past .less
  | greater {past : List Char} (h : past.getLast?.any isWordChar = false) : After past .greater
  | word {past read : List Char} (h : past.getLast?.any isWordChar = false) : After (past ++ read) (.word read false)
  | escaped {past read : List Char} : After past (.word read true)
  | quoted {past read : List Char} {quote : Char} (h : isWordChar quote = false) : After past (.quoted quote read)
  | escape {past read : List Char} {quote : Option Char} (h : quote.any isWordChar = false) :
      After past (.escape quote read)
  | unicode {past read : List Char} {quote : Option Char} {more value : Nat} (h : quote.any isWordChar = false) :
      After past (.unicode quote read more value)

theorem after_resume {past read : List Char} {quote : Option Char} (h : quote.any isWordChar = false) :
    After past (resume quote read) := by
  cases quote with
  | none => exact .escaped
  | some q => exact .quoted h

theorem not_wordChar_of_blank {c : Char} (h : isBlank c = true) : isWordChar c = false := by
  unfold isBlank at h
  simp only [List.mem_cons, List.not_mem_nil, or_false, decide_eq_true_eq] at h
  rcases h with rfl | rfl | rfl | rfl <;> rfl

theorem getLast?_snoc_any {past : List Char} {c : Char} (h : isWordChar c = false) :
    (past ++ [c]).getLast?.any isWordChar = false := by
  rw [List.getLast?_append]
  exact h

/-- A character that starts something ends no word. -/
theorem start_after {past : List Char} {c : Char} {started : List Token × Scan} (h : start c = some started)
    (hpast : past.getLast?.any isWordChar = false ∨ isWordChar c = false) :
    (∀ w, Token.word w ∉ started.1) ∧ After (past ++ [c]) started.2 := by
  unfold start at h
  split at h
  · rename_i hblank
    cases h
    exact ⟨fun w hw => (by cases hw), .between (getLast?_snoc_any (not_wordChar_of_blank hblank))⟩
  · split at h
    · rename_i hword
      cases h
      have hapart := hpast.resolve_right (by rw [hword]; exact Bool.noConfusion)
      exact ⟨fun w hw => (by cases hw), .word hapart⟩
    · rename_i hword
      have hapart : (past ++ [c]).getLast?.any isWordChar = false := getLast?_snoc_any (Bool.eq_false_iff.mpr hword)
      split at h <;> cases h
      · exact ⟨fun w hw => (by cases hw), .quoted rfl⟩
      · exact ⟨fun w hw => (by cases hw), .quoted rfl⟩
      · exact ⟨fun w hw => (by cases hw), .escape rfl⟩
      iterate 5 exact ⟨fun w hw => (by cases List.mem_singleton.mp hw), .between hapart⟩
      · exact ⟨fun w hw => (by cases hw), .bang hapart⟩
      · exact ⟨fun w hw => (by cases hw), .less hapart⟩
      · exact ⟨fun w hw => (by cases hw), .greater hapart⟩

theorem startAfter_after {past : List Char} {token : Token} {c : Char} {r : List Token × Scan}
    (h : startAfter token c = some r) (hc : past.getLast?.any isWordChar = false ∨ isWordChar c = false) :
    (∀ w, Token.word w ∈ r.1 → Token.word w = token) ∧ After (past ++ [c]) r.2 := by
  obtain ⟨started, hstarted, rfl⟩ := Option.map_eq_some_iff.mp h
  obtain ⟨hnone, hafter⟩ := start_after hstarted hc
  refine ⟨fun w hw => ?_, hafter⟩
  rcases List.mem_cons.mp hw with hw | hw
  · exact hw
  · exact absurd hw (hnone w)

/-- What a character ends stands in every text that goes on with it. -/
def Ends (past : List Char) (c : Char) (r : List Token × Scan) : Prop :=
  (∀ w, Token.word w ∈ r.1 → ∀ rest, Stands (past ++ c :: rest) w) ∧ After (past ++ [c]) r.2

theorem ends_none {past : List Char} {c : Char} {s : Scan} (h : After (past ++ [c]) s) : Ends past c ([], s) :=
  ⟨fun w hw => (by cases hw), h⟩

theorem ends_other {past : List Char} {c : Char} {token : Token} {s : Scan} (htoken : ∀ w, Token.word w ≠ token)
    (h : After (past ++ [c]) s) : Ends past c ([token], s) :=
  ⟨fun w hw => absurd (List.mem_singleton.mp hw) (htoken w), h⟩

theorem after_between {past : List Char} {c : Char} (h : isWordChar c = false) : After (past ++ [c]) .between :=
  .between (getLast?_snoc_any h)

theorem next_after {past : List Char} {s : Scan} {c : Char} {r : List Token × Scan} (h : next s c = some r)
    (hafter : After past s) : Ends past c r := by
  cases s with
  | between =>
    cases hafter with
    | between hpast =>
      obtain ⟨hwords, hnext⟩ := start_after h (.inl hpast)
      exact ⟨fun w hw => absurd hw (hwords w), hnext⟩
  | word read escaped =>
    rw [next] at h
    split at h
    · rename_i hc
      cases h
      cases hafter with
      | word hpast =>
        refine ends_none ?_
        rw [List.append_assoc]
        exact .word hpast
      | escaped => exact ends_none .escaped
    · rename_i hc
      have hend := Bool.eq_false_iff.mpr hc
      split at h
      · cases h
        exact ends_none (.escape rfl)
      · obtain ⟨hwords, hnext⟩ := startAfter_after h (.inr hend)
        refine ⟨fun w hw rest => ?_, hnext⟩
        have hw := hwords w hw
        cases hafter with
        | word hpast =>
          cases hw
          exact ⟨_, c :: rest, rfl, hpast, hend⟩
        | escaped => cases hw
  | quoted quote read =>
    cases hafter with
    | quoted hquote =>
      rw [next] at h
      split at h
      · rename_i hc
        cases h
        exact ends_other (fun w hw => by cases hw) (after_between (by rw [hc]; exact hquote))
      · split at h
        · cases h
          exact ends_none (.escape hquote)
        · cases h
          exact ends_none (.quoted hquote)
  | escape quote read =>
    cases hafter with
    | escape hquote =>
      rw [next] at h
      split at h
      · cases h
        exact ends_none (.unicode hquote)
      · obtain ⟨e, -, rfl⟩ := Option.map_eq_some_iff.mp h
        exact ends_none (after_resume hquote)
  | unicode quote read more value =>
    cases hafter with
    | unicode hquote =>
      rw [next] at h
      obtain ⟨d, -, rfl⟩ := Option.map_eq_some_iff.mp h
      cases more with
      | zero => exact ends_none (after_resume hquote)
      | succ more => exact ends_none (.unicode hquote)
  | bang =>
    rw [next] at h
    split at h
    · rename_i hc
      cases h
      exact ends_other (fun w hw => by cases hw) (after_between (by rw [hc]; rfl))
    · split at h
      · rename_i hc
        cases h
        exact ends_other (fun w hw => by cases hw) (after_between (by rw [hc]; rfl))
      · cases h
  | less =>
    cases hafter with
    | less hpast =>
      rw [next] at h
      split at h
      · rename_i hc
        cases h
        exact ends_other (fun w hw => by cases hw) (after_between (by rw [hc]; rfl))
      · obtain ⟨hwords, hnext⟩ := startAfter_after h (.inl hpast)
        exact ⟨fun w hw => absurd (hwords w hw) (by simp), hnext⟩
  | greater =>
    cases hafter with
    | greater hpast =>
      rw [next] at h
      split at h
      · rename_i hc
        cases h
        exact ends_other (fun w hw => by cases hw) (after_between (by rw [hc]; rfl))
      · obtain ⟨hwords, hnext⟩ := startAfter_after h (.inl hpast)
        exact ⟨fun w hw => absurd (hwords w hw) (by simp), hnext⟩

theorem scan_after {text : List Char} : ∀ {past : List Char} {s : Scan} {r : List Token × Scan},
    scan s text = some r → After past s →
      (∀ w, Token.word w ∈ r.1 → Stands (past ++ text) w) ∧ After (past ++ text) r.2 := by
  induction text with
  | nil =>
    intro past s r h hafter
    cases h
    rw [List.append_nil]
    exact ⟨fun w hw => (by cases hw), hafter⟩
  | cons c text ih =>
    intro past s r h hafter
    obtain ⟨first, hfirst, h⟩ := Option.bind_eq_some_iff.mp h
    obtain ⟨rest, hrest, rfl⟩ := Option.map_eq_some_iff.mp h
    obtain ⟨hhere, hnext⟩ := next_after hfirst hafter
    obtain ⟨hlater, hend⟩ := ih hrest hnext
    rw [List.append_assoc, List.singleton_append] at hlater hend
    refine ⟨fun w hw => ?_, hend⟩
    rcases List.mem_append.mp hw with hw | hw
    · exact hhere w hw text
    · exact hlater w hw

theorem stands_of_mem_lex {text : List Char} {tokens : List Token} (h : lex text = some tokens) {w : List Char}
    (hw : Token.word w ∈ tokens) : Stands text w := by
  obtain ⟨scanned, hscanned, h⟩ := Option.bind_eq_some_iff.mp h
  obtain ⟨last, hlast, rfl⟩ := Option.map_eq_some_iff.mp h
  obtain ⟨hwords, hafter⟩ := scan_after hscanned (.between rfl : After [] .between)
  rw [List.nil_append] at hwords hafter
  rcases List.mem_append.mp hw with hw | hw
  · exact hwords w hw
  · generalize scanned.2 = s at hlast hafter
    cases hafter with
    | word hpast =>
      cases hlast
      cases List.mem_singleton.mp hw
      exact ⟨_, [], (List.append_nil _).symm, hpast, rfl⟩
    | between =>
      cases hlast
      cases hw
    | less =>
      cases hlast
      cases List.mem_singleton.mp hw
    | greater =>
      cases hlast
      cases List.mem_singleton.mp hw
    | escaped =>
      cases hlast
      cases List.mem_singleton.mp hw
    | _ => cases hlast

/-! ## A text cut after some of its characters -/

theorem scan_append (before text : List Char) : ∀ s, scan s (before ++ text) = (scan s before).bind fun first =>
    (scan first.2 text).map fun rest => (first.1 ++ rest.1, rest.2) := by
  induction before with
  | nil =>
    intro s
    simp [scan]
  | cons c before ih =>
    intro s
    rw [List.cons_append, scan, scan]
    cases next s c with
    | none => rfl
    | some first =>
      simp only [Option.bind_some, ih]
      cases scan first.2 before with
      | none => rfl
      | some rest =>
        simp only [Option.bind_some, Option.map_some, Option.map_map]
        refine congrArg (Option.map · (scan rest.2 text)) (funext fun last => ?_)
        simp

end WorkforceRisk.Lib.Jql

/-
  WorkforceRisk.Devops.Secrets — what the expression for secrets takes out of a line
  (services/devops-mcp/src/devops_mcp/tools/logs.py: `SECRET_PATTERN`).

  `bearer` and a word, or `password` or `api_key`, `=` or `:`, and a word. `IsSecret` says it
  of a text, `SecretAt` of a place of a line, where the word goes on up to a blank.

  Proved, of what `re.IGNORECASE` and `\s` are documented to make of characters
  (`CaseTables`): the expression matches at a place exactly if a secret stands there
  (`everywhere_secret_iff`), so that the secrets it takes are the leftmost of the line
  (`secrets_leftmost`); none begins inside the name of a field or in what joins it to its
  value, and at the name none begins if a quote follows (`quiet_name`, `quiet_joint`,
  `not_secret_of_quote`).
-/

import Mathlib.Data.List.TakeWhile
import WorkforceRisk.Evidence.Phrases
import WorkforceRisk.Lib.Redaction

namespace WorkforceRisk.Devops

open Lib Historical Evidence Regex

section
variable [TextTables]

/-- A word in any case. -/
def anyCase (s : String) : Regex := Pattern.ignoreCase (lit s)

/-- `\S+` -/
def word : Regex := plus (set fun c => !Unicode.isSpace c)

/-- `\s*[=:]\s*\S+` -/
def assigned : List Regex := [many Pattern.space, oneOf ['=', ':'], many Pattern.space, word]

def bearerSecret : Regex := seqs [anyCase "bearer", plus Pattern.space, word]

def apiKeySecret : Regex := seqs (anyCase "api" :: opt (oneOf ['_', '-']) :: anyCase "key" :: assigned)

def passwordSecret : Regex := seqs (anyCase "password" :: assigned)

/-- `SECRET_PATTERN`: `(?i)(bearer\s+\S+|api[_-]?key\s*[=:]\s*\S+|password\s*[=:]\s*\S+)` -/
def secretPattern : Regex := group 1 (alt bearerSecret (alt apiKeySecret passwordSecret))

/-! ## What a secret is -/

def Blank (t : List Char) : Prop := ∀ c ∈ t, Unicode.isSpace c = true

structure IsWord (t : List Char) : Prop where
  some : t ≠ []
  solid : ∀ c ∈ t, Unicode.isSpace c = false

/-- A text after which a word does not go on. -/
def WordEnds (rest : List Char) : Prop := rest.head?.any (fun c => !Unicode.isSpace c) = false

/-- `password`, `api_key`, `api-key` or `apikey`, as `re.IGNORECASE` reads it. -/
inductive SecretName : List Char → Prop where
  | password {name : List Char} (spelled : Spells TextTables.variants name "password") : SecretName name
  | apiKey {api sign key : List Char} (api_spelled : Spells TextTables.variants api "api")
      (sign_is : sign = [] ∨ sign = ['_'] ∨ sign = ['-']) (key_spelled : Spells TextTables.variants key "key") :
      SecretName (api ++ (sign ++ key))

inductive IsSecret : List Char → Prop where
  | bearer {name blanks value : List Char} (named : Spells TextTables.variants name "bearer") (apart : blanks ≠ [])
      (blank : Blank blanks) (word : IsWord value) : IsSecret (name ++ (blanks ++ value))
  | assigned {name blanks blanks' value : List Char} {sign : Char} (named : SecretName name) (blank : Blank blanks)
      (sign_is : sign = '=' ∨ sign = ':') (blank' : Blank blanks') (word : IsWord value) :
      IsSecret (name ++ (blanks ++ sign :: (blanks' ++ value)))

/-- A secret stands in a line, with its whole word. -/
def SecretAt (line : List Char) (s : Span) : Prop :=
  ∃ before t rest, line = before ++ (t ++ rest) ∧ IsSecret t ∧ WordEnds rest ∧
    s = ⟨before.length, before.length + t.length⟩

/-- Of `re.IGNORECASE` and `\s`, what is documented: a character is read as itself, a letter
    also as its small one, and none as two letters; a blank has no case, and the signs are
    none. -/
structure CaseTables : Prop where
  self : ∀ c, c ∈ TextTables.variants c
  lower : ∀ c : Char, c.toNat < 128 → c.toLower ∈ TextTables.variants c
  single : ∀ c v w : Char, v ∈ TextTables.variants c → w ∈ TextTables.variants c → v.toNat < 128 → w.toNat < 128 →
    v.toLower = w.toLower
  blank : ∀ c v : Char, Unicode.isSpace c = true → v ∈ TextTables.variants c → v = c
  equals : Unicode.isSpace '=' = false
  colon : Unicode.isSpace ':' = false
  quote : Unicode.isSpace '"' = false

/-! ## The expression takes secrets -/

theorem IsWord.append {t more : List Char} (h : IsWord t) (hmore : ∀ c ∈ more, Unicode.isSpace c = false) :
    IsWord (t ++ more) :=
  ⟨List.append_ne_nil_of_left_ne_nil h.some more, fun c hc => (List.mem_append.mp hc).elim (h.solid c) (hmore c)⟩

/-- A secret with a longer word is one. -/
theorem IsSecret.append {t more : List Char} (h : IsSecret t) (hmore : ∀ c ∈ more, Unicode.isSpace c = false) :
    IsSecret (t ++ more) := by
  cases h with
  | @bearer name blanks value named apart blank word =>
    rw [List.append_assoc, List.append_assoc]
    exact .bearer named apart blank (word.append hmore)
  | @assigned name blanks blanks' value sign named blank sign_is blank' word =>
    rw [List.append_assoc, List.append_assoc, List.cons_append, List.append_assoc]
    exact .assigned named blank sign_is blank' (word.append hmore)

theorem IsSecret.length_pos {t : List Char} (h : IsSecret t) : 0 < t.length := by
  cases h with
  | bearer named apart blank word =>
    have hvalue := List.length_pos_iff.mpr word.some
    simp only [List.length_append]
    omega
  | assigned named blank sign_is blank' word =>
    simp only [List.length_append, List.length_cons]
    omega

theorem reaches_assigned {c c' : Cursor} (h : Reaches (seqs assigned) c c') : ∃ blanks sign blanks' value,
    Blank blanks ∧ (sign = '=' ∨ sign = ':') ∧ Blank blanks' ∧ IsWord value ∧
      c.rest = blanks ++ sign :: (blanks' ++ value) ++ c'.rest := by
  obtain ⟨d₁, h₁, d₂, ⟨sign, rest, hrest, hsign, rfl⟩, d₃, h₃, d₄, h₄, rfl⟩ := h
  obtain ⟨blanks, hblank, hsplit₁⟩ := reaches_star h₁
  obtain ⟨blanks', hblank', hsplit₃⟩ := reaches_star h₃
  obtain ⟨value, hne, hsolid, hsplit₄⟩ := reaches_plus h₄
  have hsign' : sign = '=' ∨ sign = ':' := List.mem_pair.mp (of_decide_eq_true hsign)
  refine ⟨blanks, sign, blanks', value, hblank, hsign', hblank', ⟨hne, fun c hc => ?_⟩, ?_⟩
  · simpa using hsolid c hc
  · dsimp only at hsplit₃
    rw [hsplit₁, hrest, hsplit₃, hsplit₄]
    simp only [List.append_assoc, List.cons_append]

/-- What can be matched is a secret. -/
theorem reaches_secret {c c' : Cursor} (h : Reaches secretPattern c c') : ∃ t, IsSecret t ∧ c.rest = t ++ c'.rest := by
  obtain ⟨d, h, rfl⟩ := h
  show ∃ t, IsSecret t ∧ c.rest = t ++ d.rest
  rcases h with ⟨d₁, h₁, d₂, h₂, d₃, h₃, rfl⟩ | ⟨d₁, h₁, d₂, h₂, d₃, h₃, h₄⟩ | ⟨d₁, h₁, h₂⟩
  · obtain ⟨name, hname, hsplit₁⟩ := reaches_lit h₁
    obtain ⟨blanks, hne, hblank, hsplit₂⟩ := reaches_plus h₂
    obtain ⟨value, hvalue, hsolid, hsplit₃⟩ := reaches_plus h₃
    refine ⟨_, .bearer hname hne hblank ⟨hvalue, fun c hc => by simpa using hsolid c hc⟩, ?_⟩
    rw [hsplit₁, hsplit₂, hsplit₃]
    simp only [List.append_assoc]
  · obtain ⟨api, hapi, hsplit₁⟩ := reaches_lit h₁
    obtain ⟨key, hkey, hsplit₃⟩ := reaches_lit h₃
    obtain ⟨sign', hsign', hsplit₂⟩ :
        ∃ sign, (sign = [] ∨ sign = ['_'] ∨ sign = ['-']) ∧ d₁.rest = sign ++ d₂.rest := by
      rcases h₂ with ⟨x, rest, hrest, hx, rfl⟩ | rfl
      · rcases List.mem_pair.mp (of_decide_eq_true hx) with rfl | rfl
        · exact ⟨['_'], .inr (.inl rfl), hrest⟩
        · exact ⟨['-'], .inr (.inr rfl), hrest⟩
      · exact ⟨[], .inl rfl, rfl⟩
    obtain ⟨blanks, sign, blanks', value, hblank, hsign, hblank', hword, hsplit₄⟩ := reaches_assigned h₄
    refine ⟨_, .assigned (.apiKey hapi hsign' hkey) hblank hsign hblank' hword, ?_⟩
    rw [hsplit₁, hsplit₂, hsplit₃, hsplit₄]
    simp only [List.append_assoc]
  · obtain ⟨name, hname, hsplit₁⟩ := reaches_lit h₁
    obtain ⟨blanks, sign, blanks', value, hblank, hsign, hblank', hword, hsplit₂⟩ := reaches_assigned h₂
    refine ⟨_, .assigned (.password hname) hblank hsign hblank' hword, ?_⟩
    rw [hsplit₁, hsplit₂]
    simp only [List.append_assoc]

/-! ## It takes the whole of them -/

theorem takes_word {value rest : List Char} (hvalue : IsWord value) (hend : WordEnds rest) : Takes word value rest :=
  fun _ _ => leads_plus hvalue.some (fun c hc => by rw [hvalue.solid c hc]; rfl) hend

theorem IsWord.head_not_space {value rest : List Char} (h : IsWord value) :
    (value ++ rest).head?.any Unicode.isSpace = false := by
  obtain ⟨c, cs, rfl⟩ := List.exists_cons_of_ne_nil h.some
  exact h.solid c List.mem_cons_self

/-- The sign with its blanks and the word after it are taken. -/
theorem takes_assigned (tables : CaseTables) {blanks blanks' value rest : List Char} {sign : Char}
    (hblank : Blank blanks) (hsign : sign = '=' ∨ sign = ':') (hblank' : Blank blanks') (hvalue : IsWord value)
    (hend : WordEnds rest) : Takes (seqs assigned) (blanks ++ sign :: (blanks' ++ value)) rest := by
  have hspace : Unicode.isSpace sign = false := by
    rcases hsign with rfl | rfl
    · exact tables.equals
    · exact tables.colon
  have hsignIn : decide (sign ∈ ['=', ':']) = true := decide_eq_true (List.mem_pair.mpr hsign)
  have htakes : Takes (seqs assigned) (blanks ++ ([sign] ++ (blanks' ++ (value ++ [])))) rest := by
    refine takes_seqs_cons (fun _ _ => leads_star hblank hspace) ?_
    refine takes_seqs_cons (fun _ _ => leads_set hsignIn) ?_
    refine takes_seqs_cons (fun _ _ => leads_star hblank' ?_) (takes_seqs_cons (takes_word hvalue hend) takes_empty)
    rw [List.append_nil]
    exact hvalue.head_not_space
  rwa [List.append_nil] at htakes

/-- A text whose first letter is another does not begin with a word. -/
theorem run_word_none (tables : CaseTables) {t rest : List Char} {s word : String} {c d : Char} {cs ds : List Char}
    (h : Spells TextTables.variants t s) (hs : s.toList = c :: cs) (hword : word.toList = d :: ds)
    (hc : c.toNat < 128) (hd : d.toNat < 128) (hne : c.toLower ≠ d.toLower) (r : Regex) (α : Type)
    (before : Option Char) (groups : List (Nat × List Char)) (next : Cursor → Option α) :
    run (seq (anyCase word) r) ⟨before, t ++ rest, groups⟩ next = none := by
  refine run_lit_none hword (fun x hx hin => hne ?_) r α before groups next
  unfold Spells at h
  rw [hs] at h
  obtain ⟨y, t, hy, -, rfl⟩ := List.forall₂_cons_right_iff.mp h
  obtain rfl : y = x := Option.some.inj hx
  exact tables.single y c d hy hin hc hd

/-- A character read as another letter is not this one. -/
theorem ne_of_variant (tables : CaseTables) {x c d : Char} (hx : c ∈ TextTables.variants x) (hc : c.toNat < 128)
    (hd : d.toNat < 128) (hne : c.toLower ≠ d.toLower) : x ≠ d := by
  rintro rfl
  exact hne (tables.single x c x hx (tables.self x) hc hd)

theorem takes_mid (tables : CaseTables) {mid key rest : List Char} (hmid : mid = [] ∨ mid = ['_'] ∨ mid = ['-'])
    (hkey : Spells TextTables.variants key "key") : Takes (opt (oneOf ['_', '-'])) mid (key ++ rest) := by
  rcases hmid with rfl | rfl | rfl
  · obtain ⟨x, key, hx, -, rfl⟩ := List.forall₂_cons_right_iff.mp hkey
    refine takes_right (fun α b g next => run_set_none ?_) takes_empty
    have hnot : x ≠ '_' ∧ x ≠ '-' :=
      ⟨ne_of_variant tables hx (by decide) (by decide) (by decide),
        ne_of_variant tables hx (by decide) (by decide) (by decide)⟩
    show decide (x ∈ ['_', '-']) = false
    simp [hnot.1, hnot.2]
  · exact takes_left fun b g => leads_set rfl
  · exact takes_left fun b g => leads_set rfl

theorem takes_secret (tables : CaseTables) {t rest : List Char} (h : IsSecret t) (hend : WordEnds rest) :
    Takes (alt bearerSecret (alt apiKeySecret passwordSecret)) t rest := by
  cases h with
  | @bearer name blanks value named apart blank word =>
    have htakes : Takes bearerSecret (name ++ (blanks ++ (value ++ []))) rest :=
      takes_seqs_cons (fun _ _ => leads_lit named) (takes_seqs_cons (fun _ _ => leads_plus apart blank (by
        rw [List.append_nil]
        exact word.head_not_space)) (takes_seqs_cons (takes_word word hend) takes_empty))
    rw [List.append_nil] at htakes
    exact takes_left htakes
  | @assigned name blanks blanks' value sign named blank sign_is blank' word =>
    have hassigned := takes_assigned tables blank sign_is blank' word hend
    cases named with
    | password spelled =>
      refine takes_right (fun α b g next => ?_) (takes_right (fun α b g next => ?_) ?_)
      · rw [List.append_assoc]
        exact run_word_none tables spelled rfl rfl (by decide) (by decide) (by decide) _ α b g next
      · rw [List.append_assoc]
        exact run_word_none tables spelled rfl rfl (by decide) (by decide) (by decide) _ α b g next
      · exact takes_seqs_cons (fun _ _ => leads_lit spelled) hassigned
    | @apiKey api mid key api_spelled mid_is key_spelled =>
      refine takes_right (fun α b g next => ?_) (takes_left ?_)
      · rw [List.append_assoc, List.append_assoc]
        exact run_word_none tables api_spelled rfl rfl (by decide) (by decide) (by decide) _ α b g next
      · rw [List.append_assoc, List.append_assoc]
        refine takes_seqs_cons (fun _ _ => leads_lit api_spelled) (takes_seqs_cons ?_
          (takes_seqs_cons (fun _ _ => leads_lit key_spelled) hassigned))
        rw [List.append_assoc]
        exact takes_mid tables mid_is key_spelled

/-- A secret is matched with its whole word. -/
theorem here_secret (tables : CaseTables) {t rest : List Char} (h : IsSecret t) (hend : WordEnds rest)
    (before : Option Char) : ∃ c, here secretPattern before (t ++ rest) = some c ∧ c.rest = rest :=
  ⟨_, leads_group (takes_secret tables h hend before []) _ some _ rfl, rfl⟩

/-- A text begins with the rest of a word. -/
theorem word_rest (text : List Char) : ∃ more rest, text = more ++ rest ∧
    (∀ c ∈ more, Unicode.isSpace c = false) ∧ WordEnds rest := by
  refine ⟨text.takeWhile fun c => !Unicode.isSpace c, text.dropWhile fun c => !Unicode.isSpace c,
    List.takeWhile_append_dropWhile.symm, fun c hc => by simpa using List.mem_takeWhile_imp hc, ?_⟩
  unfold WordEnds
  cases hhead : (text.dropWhile fun c => !Unicode.isSpace c).head? with
  | none => rfl
  | some x =>
    have hdropped := List.head?_dropWhile_not (fun c => !Unicode.isSpace c) text
    rw [hhead] at hdropped
    simpa using hdropped

/-- What is matched at a place is the secret that stands there. -/
theorem here_secret_iff (tables : CaseTables) {before : Option Char} {text rest : List Char} :
    (∃ c, here secretPattern before text = some c ∧ c.rest = rest) ↔
      ∃ t, text = t ++ rest ∧ IsSecret t ∧ WordEnds rest := by
  constructor
  · rintro ⟨c, hhere, rfl⟩
    obtain ⟨d, hreaches, hsame⟩ := run_reaches hhere
    cases hsame
    obtain ⟨t, hsecret, rfl⟩ : ∃ t, IsSecret t ∧ text = t ++ c.rest := reaches_secret hreaches
    -- The engine goes on to the end of the word.
    obtain ⟨more, rest, hrest, hmore, hend⟩ := word_rest c.rest
    obtain ⟨c', hhere', hrest'⟩ := here_secret tables (hsecret.append hmore) hend before
    rw [List.append_assoc, ← hrest, hhere] at hhere'
    rw [← Option.some.inj hhere'] at hrest'
    exact ⟨t, rfl, hsecret, hrest' ▸ hend⟩
  · rintro ⟨t, rfl, hsecret, hend⟩
    exact here_secret tables hsecret hend before

/-- The matches of all places of a line are the secrets of it. -/
theorem everywhere_secret_iff (tables : CaseTables) {line : List Char} {s : Span} :
    (∃ m ∈ everywhere secretPattern line, m.span = s) ↔ SecretAt line s := by
  constructor
  · rintro ⟨m, hm, rfl⟩
    obtain ⟨pre, rest, c, rfl, hhere, rfl⟩ := mem_everyFrom_iff.mp hm
    obtain ⟨t, rfl, hsecret, hend⟩ := (here_secret_iff tables).mp ⟨c, hhere, rfl⟩
    refine ⟨pre, t, c.rest, rfl, hsecret, hend, ?_⟩
    simp [Found.span]
  · rintro ⟨pre, t, rest, rfl, hsecret, hend, rfl⟩
    obtain ⟨c, hhere, rfl⟩ := (here_secret_iff tables).mpr ⟨t, rfl, hsecret, hend⟩
    refine ⟨_, mem_everyFrom_iff.mpr ⟨pre, t ++ c.rest, c, rfl, hhere, rfl⟩, ?_⟩
    simp [Found.span]

def secrets (line : List Char) : List Span := (findAll secretPattern line).map Found.span

theorem SecretAt.length_pos {line : List Char} {s : Span} (h : SecretAt line s) : s.start < s.stop := by
  obtain ⟨before, t, rest, -, hsecret, -, rfl⟩ := h
  exact Nat.lt_add_of_pos_right hsecret.length_pos

/-- What is taken are the leftmost secrets of the line. -/
theorem secrets_leftmost (tables : CaseTables) (line : List Char) : Leftmost (SecretAt line) (secrets line) := by
  have hmatches : (fun s => ∃ m ∈ everywhere secretPattern line, m.span = s) = SecretAt line :=
    funext fun s => propext (everywhere_secret_iff tables)
  rw [← hmatches]
  refine findAll_leftmost fun m hm => ?_
  have hsecret : SecretAt line m.span := (everywhere_secret_iff tables).mp ⟨m, hm, rfl⟩
  exact hsecret.length_pos


/-- A secret stands in a line up to the end of its word. -/
theorem secretAt_of_secret {t : List Char} (h : IsSecret t) (before right : List Char) :
    ∃ stop, SecretAt (before ++ (t ++ right)) ⟨before.length, stop⟩ ∧ before.length + t.length ≤ stop := by
  obtain ⟨more, rest, rfl, hmore, hend⟩ := word_rest right
  refine ⟨_, ⟨before, t ++ more, rest, by rw [List.append_assoc], h.append hmore, hend, rfl⟩, ?_⟩
  rw [List.length_append]
  omega

/-! ## Where no secret begins -/

/-- The first two letters of a secret. -/
def beginnings : List (Char × Char) := [('b', 'e'), ('a', 'p'), ('p', 'a')]

theorem IsSecret.begins {t : List Char} (h : IsSecret t) : ∃ x y t', t = x :: y :: t' ∧
    ∃ b ∈ beginnings, b.1 ∈ TextTables.variants x ∧ b.2 ∈ TextTables.variants y := by
  have hspelled : ∀ {name more : List Char} {w : String} {c d : Char} {cs : List Char},
      Spells TextTables.variants name w → w.toList = c :: d :: cs → (c, d) ∈ beginnings →
      ∃ x y t', name ++ more = x :: y :: t' ∧
        ∃ b ∈ beginnings, b.1 ∈ TextTables.variants x ∧ b.2 ∈ TextTables.variants y := by
    intro name more w c d cs hname hw hmem
    unfold Spells at hname
    rw [hw] at hname
    obtain ⟨x, name', hx, htail, rfl⟩ := List.forall₂_cons_right_iff.mp hname
    obtain ⟨y, name', hy, -, rfl⟩ := List.forall₂_cons_right_iff.mp htail
    exact ⟨x, y, name' ++ more, rfl, (c, d), hmem, hx, hy⟩
  cases h with
  | bearer named => exact hspelled named rfl (by decide)
  | assigned named =>
    cases named with
    | password spelled => exact hspelled spelled rfl (by decide)
    | apiKey api_spelled =>
      rw [List.append_assoc]
      exact hspelled api_spelled rfl (by decide)

/-- In letters that are read so, no secret begins. -/
def quietLetters : List Char → Bool
  | [] => true
  | [c] => beginnings.all fun b => b.1 != c.toLower
  | c :: d :: cs => (beginnings.all fun b => b.1 != c.toLower || b.2 != d.toLower) && quietLetters (d :: cs)

/-- No secret begins in the first text, if the second follows. -/
def Quiet : List Char → List Char → Prop
  | [], _ => True
  | x :: text, more => (∀ t rest, x :: (text ++ more) = t ++ rest → ¬ IsSecret t) ∧ Quiet text more

theorem Quiet.append {text text' more : List Char} (h : Quiet text (text' ++ more)) (h' : Quiet text' more) :
    Quiet (text ++ text') more := by
  induction text with
  | nil => exact h'
  | cons x text ih =>
    refine ⟨fun t rest heq => h.1 t rest ?_, ih h.2⟩
    rw [← List.append_assoc]
    exact heq

/-- No secret of a line begins there. -/
theorem Quiet.not_secretAt {before text more : List Char} {s : Span} (h : Quiet text more)
    (hs : SecretAt (before ++ (text ++ more)) s) (hle : before.length ≤ s.start) :
    before.length + text.length ≤ s.start := by
  induction text generalizing before with
  | nil => exact hle
  | cons x text ih =>
    have hlater : before.length + 1 ≤ s.start := by
      refine Nat.lt_of_le_of_ne hle fun heq => ?_
      obtain ⟨before', t, rest, hline, hsecret, -, rfl⟩ := hs
      obtain ⟨-, hrest⟩ := List.append_inj hline heq
      exact h.1 t rest hrest hsecret
    have hnext : before ++ (x :: text ++ more) = before ++ [x] ++ (text ++ more) := by
      rw [List.append_assoc]
      rfl
    have hmove := ih h.2 (hnext ▸ hs) (by rw [List.length_append]; exact hlater)
    rw [List.length_append] at hmove
    rw [List.length_cons]
    simp only [List.length_singleton] at hmove
    omega

theorem quiet_blank (tables : CaseTables) {text more : List Char} (h : Blank text) : Quiet text more := by
  induction text with
  | nil => trivial
  | cons x text ih =>
    obtain ⟨hx, htext⟩ := List.forall_mem_cons.mp h
    refine ⟨fun t rest heq hsecret => ?_, ih htext⟩
    obtain ⟨y, z, t', rfl, b, hb, hy, -⟩ := hsecret.begins
    obtain ⟨rfl, -⟩ := List.cons.inj heq
    have hletter : ∀ b ∈ beginnings, b.1.isAlphanum = true := by decide
    have hsolid := TextTables.space_ascii b.1 (hletter b hb)
    rw [tables.blank x b.1 hx hy, hx] at hsolid
    cases hsolid

/-- A letter that is read begins a secret only as that letter. -/
theorem eq_of_begins (tables : CaseTables) {x c d : Char} (hc : c ∈ TextTables.variants x)
    (hd : d ∈ TextTables.variants x) (hascii : c.toNat < 128) (hsmall : d.toLower = d ∧ d.toNat < 128) : d = c.toLower :=
  hsmall.1.symm.trans (tables.single x d c hd hc hsmall.2 hascii)

theorem quiet_spelled (tables : CaseTables) {text more cs : List Char}
    (h : List.Forall₂ (fun x c => c ∈ TextTables.variants x) text cs) (hascii : ∀ c ∈ cs, c.toNat < 128)
    (hquiet : quietLetters cs = true) : Quiet text more := by
  have hsmall : ∀ b ∈ beginnings, (b.1.toLower = b.1 ∧ b.1.toNat < 128) ∧ (b.2.toLower = b.2 ∧ b.2.toNat < 128) := by
    decide
  induction h with
  | nil => trivial
  | @cons x c text cs hx htail ih =>
    obtain ⟨hc, hcs⟩ := List.forall_mem_cons.mp hascii
    cases htail with
    | nil =>
      refine ⟨fun t rest heq hsecret => ?_, trivial⟩
      obtain ⟨y, z, t', rfl, b, hb, hy, -⟩ := hsecret.begins
      obtain ⟨rfl, -⟩ := List.cons.inj heq
      have hnot := List.all_eq_true.mp hquiet b hb
      rw [eq_of_begins tables hx hy hc (hsmall b hb).1] at hnot
      simp at hnot
    | @cons y d text cs hy htail =>
      obtain ⟨hfirst, hlater⟩ := Bool.and_eq_true_iff.mp hquiet
      refine ⟨fun t rest heq hsecret => ?_, ih hcs hlater⟩
      obtain ⟨x', y', t', rfl, b, hb, hx', hy'⟩ := hsecret.begins
      obtain ⟨rfl, htext⟩ := List.cons.inj heq
      obtain ⟨rfl, -⟩ := List.cons.inj htext
      have hnot := List.all_eq_true.mp hfirst b hb
      rw [eq_of_begins tables hx hx' hc (hsmall b hb).1,
        eq_of_begins tables hy hy' (hcs d List.mem_cons_self) (hsmall b hb).2] at hnot
      simp at hnot

/-! ## Names of fields -/

/-- The letters of the names. -/
def secretNames : List String := ["password", "apikey", "api_key", "api-key"]

theorem SecretName.spells (tables : CaseTables) {name : List Char} (h : SecretName name) :
    ∃ w ∈ secretNames, Spells TextTables.variants name w := by
  cases h with
  | password spelled => exact ⟨_, List.mem_cons_self, spelled⟩
  | @apiKey api sign key api_spelled sign_is key_spelled =>
    have hsign : List.Forall₂ (fun x c => c ∈ TextTables.variants x) sign sign :=
      List.forall₂_same.mpr fun c _ => tables.self c
    have hall := List.rel_append api_spelled (List.rel_append hsign key_spelled)
    rcases sign_is with rfl | rfl | rfl
    · exact ⟨"apikey", by decide, hall⟩
    · exact ⟨"api_key", by decide, hall⟩
    · exact ⟨"api-key", by decide, hall⟩

/-- Behind the first letter of a name no secret begins in it. -/
theorem quiet_name (tables : CaseTables) {name more : List Char} (h : SecretName name) :
    ∃ x tail, name = x :: tail ∧ Quiet tail more := by
  obtain ⟨w, hw, hspells⟩ := h.spells tables
  have hletters : (secretNames.all fun w => !w.toList.isEmpty && (w.toList.tail.all fun c => decide (c.toNat < 128)) &&
      quietLetters w.toList.tail) = true := by decide
  have hthis := List.all_eq_true.mp hletters w hw
  unfold Spells at hspells
  cases hcs : w.toList with
  | nil =>
    rw [hcs] at hthis
    cases hthis
  | cons c cs =>
    rw [hcs] at hspells hthis
    obtain ⟨hascii, hquiet⟩ := Bool.and_eq_true_iff.mp hthis
    obtain ⟨x, tail, -, htail, rfl⟩ := List.forall₂_cons_right_iff.mp hspells
    refine ⟨x, tail, rfl, quiet_spelled tables htail (fun d hd => ?_) hquiet⟩
    exact of_decide_eq_true (List.all_eq_true.mp hascii d hd)

section
variable {t t' text text' : List Char} {w w' : String}

/-- Words that a text begins with begin with one letter. -/
theorem first_letter (tables : CaseTables) (h : Spells TextTables.variants t w) (h' : Spells TextTables.variants t' w')
    {c d : Char} {cs ds : List Char} (hw : w.toList = c :: cs) (hw' : w'.toList = d :: ds) (hc : c.toNat < 128)
    (hd : d.toNat < 128) (heq : t ++ text = t' ++ text') : c.toLower = d.toLower := by
  unfold Spells at h h'
  rw [hw] at h
  rw [hw'] at h'
  obtain ⟨x, t, hx, -, rfl⟩ := List.forall₂_cons_right_iff.mp h
  obtain ⟨y, t', hy, -, rfl⟩ := List.forall₂_cons_right_iff.mp h'
  obtain ⟨rfl, -⟩ := List.cons.inj heq
  exact tables.single x c d hx hy hc hd

/-- A word is spelled by as many characters as it has. -/
theorem spells_append_inj (h : Spells TextTables.variants t w) (h' : Spells TextTables.variants t' w)
    (heq : t ++ text = t' ++ text') : text = text' :=
  (List.append_inj heq ((List.Forall₂.length_eq h).trans (List.Forall₂.length_eq h').symm)).2

end

omit [TextTables] in
theorem mid_cases {sign : List Char} (h : sign = [] ∨ sign = ['_'] ∨ sign = ['-']) :
    sign = [] ∨ ∃ s ∈ ['_', '-'], sign = [s] := by
  rcases h with rfl | rfl | rfl
  · exact .inl rfl
  · exact .inr ⟨'_', by decide, rfl⟩
  · exact .inr ⟨'-', by decide, rfl⟩

/-- A text begins with one name at most. -/
theorem secretName_unique (tables : CaseTables) {name name' text text' : List Char} (h : SecretName name)
    (h' : SecretName name') (heq : name ++ text = name' ++ text') : text = text' := by
  have hkey : ∀ {key u v : List Char} {s : Char}, Spells TextTables.variants key "key" → s ∈ ['_', '-'] →
      key ++ u ≠ [s] ++ v := by
    intro key u v s hspelled hs heq
    obtain ⟨x, key, hx, -, rfl⟩ := List.forall₂_cons_right_iff.mp hspelled
    obtain ⟨rfl, -⟩ := List.cons.inj heq
    rcases List.mem_pair.mp hs with rfl | rfl
    · exact ne_of_variant tables hx (by decide) (by decide) (by decide) rfl
    · exact ne_of_variant tables hx (by decide) (by decide) (by decide) rfl
  cases h with
  | password spelled =>
    cases h' with
    | password spelled' => exact spells_append_inj spelled spelled' heq
    | apiKey api_spelled =>
      rw [List.append_assoc] at heq
      exact absurd (first_letter tables spelled api_spelled rfl rfl (by decide) (by decide) heq) (by decide)
  | apiKey api_spelled sign_is key_spelled =>
    rw [List.append_assoc, List.append_assoc] at heq
    cases h' with
    | password spelled' =>
      exact absurd (first_letter tables api_spelled spelled' rfl rfl (by decide) (by decide) heq) (by decide)
    | apiKey api_spelled' sign_is' key_spelled' =>
      rw [List.append_assoc, List.append_assoc] at heq
      have hrest := spells_append_inj api_spelled api_spelled' heq
      rcases mid_cases sign_is with rfl | ⟨s, hs, rfl⟩
      · rcases mid_cases sign_is' with rfl | ⟨s', hs', rfl⟩
        · exact spells_append_inj key_spelled key_spelled' hrest
        · exact (hkey key_spelled hs' ((List.nil_append _).symm.trans hrest)).elim
      · rcases mid_cases sign_is' with rfl | ⟨s', hs', rfl⟩
        · exact (hkey key_spelled' hs ((List.nil_append _).symm.trans hrest.symm)).elim
        · exact spells_append_inj key_spelled key_spelled' (List.cons.inj hrest).2

/-- Where a quote follows a name no secret begins with it. -/
theorem not_secret_of_quote (tables : CaseTables) {name more t rest : List Char} (h : SecretName name)
    (heq : name ++ '"' :: more = t ++ rest) : ¬ IsSecret t := by
  intro hsecret
  cases hsecret with
  | bearer named =>
    rw [List.append_assoc] at heq
    cases h with
    | password spelled =>
      exact absurd (first_letter tables spelled named rfl rfl (by decide) (by decide) heq) (by decide)
    | apiKey api_spelled =>
      rw [List.append_assoc] at heq
      exact absurd (first_letter tables api_spelled named rfl rfl (by decide) (by decide) heq) (by decide)
  | @assigned name' blanks blanks' value sign named blank sign_is =>
    rw [List.append_assoc, List.append_assoc] at heq
    have hquote := secretName_unique tables h named heq
    cases blanks with
    | nil =>
      obtain ⟨rfl, -⟩ := List.cons.inj hquote
      rcases sign_is with hsign | hsign
      · cases hsign
      · cases hsign
    | cons c blanks =>
      obtain ⟨rfl, -⟩ := List.cons.inj hquote
      have hspace := blank '"' List.mem_cons_self
      rw [tables.quote] at hspace
      cases hspace

/-- In the signs and blanks between a name and its value no secret begins. -/
theorem quiet_sign (tables : CaseTables) {sign : Char} {text more : List Char} (hsign : sign ∈ ['=', ':', '"'])
    (h : Quiet text more) : Quiet (sign :: text) more := by
  have hquiet : ∀ s ∈ ['=', ':', '"'], s.toNat < 128 ∧ quietLetters [s] = true :=
    List.forall_mem_cons.mpr ⟨by decide, List.forall_mem_cons.mpr ⟨by decide, List.forall_mem_singleton.mpr (by decide)⟩⟩
  have hone : Quiet [sign] (text ++ more) :=
    quiet_spelled tables (.cons (tables.self sign) .nil) (List.forall_mem_singleton.mpr (hquiet sign hsign).1)
      (hquiet sign hsign).2
  exact hone.append h

/-! ## The small letters -/

/-- `password`, `api_key`, `api-key` or `apikey`, in any case. -/
def isSecretName (name : List Char) : Bool :=
  ["password", "api_key", "api-key", "apikey"].any fun s => name.map Char.toLower == s.toList

/-- A word in any case is spelled. -/
theorem spells_of_lower (tables : CaseTables) {t : List Char} {s : String} (h : t.map Char.toLower = s.toList)
    (hs : (s.toList.all fun c => decide (c.toNat < 128)) = true) : Spells TextTables.variants t s := by
  unfold Spells
  rw [← h, List.forall₂_map_right_iff]
  refine List.forall₂_same.mpr fun x hx => tables.lower x (toNat_lt_of_toLower ?_)
  exact of_decide_eq_true (List.all_eq_true.mp hs _ (h ▸ List.mem_map_of_mem hx))

omit [TextTables] in
theorem eq_of_toLower_eq {c d : Char} (hd : d.toNat < 97) (h : c.toLower = d) : c = d := by
  unfold Char.toLower at h
  split at h
  · rename_i hupper
    have hlow : 65 ≤ c.toNat := hupper.1
    have hhigh : c.toNat ≤ 90 := hupper.2
    have hnat : (c.val + 32).toNat = d.toNat := congrArg Char.toNat h
    have hval : c.val.toNat = c.toNat := rfl
    rw [UInt32.toNat_add, hval] at hnat
    have hsum : (c.toNat + 32) % 2 ^ 32 = c.toNat + 32 := Nat.mod_eq_of_lt (by omega)
    have hnumber : (c.toNat + (32 : UInt32).toNat) % 2 ^ 32 = (c.toNat + 32) % 2 ^ 32 := rfl
    rw [hnumber, hsum] at hnat
    omega
  · exact h

theorem secretName_of_lower (tables : CaseTables) {name : List Char} (h : isSecretName name = true) :
    SecretName name := by
  have hsigned : ∀ d : Char, d.toNat < 97 → ([d] = ['_'] ∨ [d] = ['-']) →
      name.map Char.toLower = "api".toList ++ ([d] ++ "key".toList) → SecretName name := by
    intro d hd hsign heq
    obtain ⟨api, rest, rfl, hapi, hrest⟩ := List.map_eq_append_iff.mp heq
    obtain ⟨sign, key, rfl, hsign', hkey⟩ := List.map_eq_append_iff.mp hrest
    obtain ⟨c, rfl, hc⟩ := List.map_eq_singleton_iff.mp hsign'
    rw [eq_of_toLower_eq hd hc]
    exact .apiKey (spells_of_lower tables hapi rfl) (.inr hsign) (spells_of_lower tables hkey rfl)
  simp only [isSecretName, List.any_cons, List.any_nil, Bool.or_false, Bool.or_eq_true, beq_iff_eq] at h
  rcases h with h | h | h | h
  · exact .password (spells_of_lower tables h rfl)
  · exact hsigned '_' (by decide) (.inl rfl) h
  · exact hsigned '-' (by decide) (.inr rfl) h
  · obtain ⟨api, key, rfl, hapi, hkey⟩ := List.map_eq_append_iff.mp (show name.map Char.toLower =
      "api".toList ++ "key".toList from h)
    have hname : SecretName (api ++ ([] ++ key)) :=
      .apiKey (spells_of_lower tables hapi rfl) (.inl rfl) (spells_of_lower tables hkey rfl)
    exact hname

end

theorem ascii_caseTables : letI := TextTables.ascii
    CaseTables := by
  let _ := TextTables.ascii
  have hlower : ∀ c v : Char, v ∈ TextTables.variants c → v.toLower = c.toLower := by
    intro c v hv
    rcases variants_ascii hv with rfl | ⟨-, -, hsame⟩
    · rfl
    · exact hsame
  exact
    { self := documented_ascii.self
      lower := fun c _ => List.mem_cons_of_mem _ List.mem_cons_self
      single := fun c v w hv hw _ _ => (hlower c v hv).trans (hlower c w hw).symm
      blank := fun c v hc hv => documented_ascii.space c v hv (.inr hc)
      equals := by decide
      colon := by decide
      quote := by decide }

end WorkforceRisk.Devops

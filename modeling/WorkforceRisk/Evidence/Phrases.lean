/-
  WorkforceRisk.Evidence.Phrases — the issue keys and the phrases `A is blocked by B` of an
  answer (services/agent-api/src/agent_api/grounding.py).

  `phrases` are those of every place the pattern matches, `dependencyClaims` those that
  `re.findall` returns, none of which begins inside another.

  Proved: a phrase names two texts of the form of a key (`phrases_keys`). Of what `re` and
  `str.upper` are documented to make of characters (`TextTables.Documented`): of a text of
  nothing but phrases, each of which begins with the key that the one before ends with, the
  first is returned, and the second is not (`dependencyClaims_overlap`,
  `overlap_mem_phrases`).
-/

import WorkforceRisk.Evidence.Grounding
import WorkforceRisk.Lib.RegexSemantics

namespace WorkforceRisk.Evidence

open Lib Historical Regex

section
variable [TextTables]

def isLetter (c : Char) : Bool := (TextTables.variants c).any Char.isUpper

def isLetterOrDigit (c : Char) : Bool := (TextTables.variants c).any fun v => v.isUpper || v.isDigit

def isHyphen (c : Char) : Bool := (TextTables.variants c).any (· == '-')

def isDecimal (c : Char) : Bool := (TextTables.variants c).any fun v => (Unicode.decimal v).isSome

/-- The text of an issue key, in any case. -/
inductive KeyText : List Char → Prop where
  | mk (x : Char) (xs : List Char) (z : Char) (ds : List Char) (letter : isLetter x = true)
      (letters : ∀ y ∈ xs, isLetterOrDigit y = true) (some : xs ≠ []) (bounded : xs.length ≤ 19)
      (hyphen : isHyphen z = true) (digits : ∀ d ∈ ds, isDecimal d = true) (nonempty : ds ≠ []) :
      KeyText (x :: (xs ++ z :: ds))

/-- Of the form of an issue key, in capitals. -/
def IsKey (key : String) : Prop := ∃ t, KeyText t ∧ upper (String.ofList t) = key

/-- What a phrase names, in capitals: what is blocked, and by what. -/
def namedIssues (m : Found) : String × String :=
  (upper (String.ofList ((m.group 1).getD [])), upper (String.ofList ((m.group 2).getD [])))

/-- The phrases of an answer, wherever in it the pattern matches. -/
def phrases (answer : String) : List (String × String) := (Pattern.blockedBy.everywhere answer.toList).map namedIssues

/-- The phrases that `re.findall` returns, none of which begins inside another. -/
def dependencyClaims (answer : String) : List (String × String) :=
  (Pattern.blockedBy.findAll answer.toList).map namedIssues

/-- Of `re` and `str`, what is documented of ASCII characters, of the characters that
    `re.IGNORECASE` takes for one, of words, blanks and digits, and of capitals. -/
structure TextTables.Documented : Prop where
  self : ∀ c, c ∈ TextTables.variants c
  ascii : ∀ c v : Char, v ∈ TextTables.variants c → c.toNat < 128 → v.toNat < 128 → v.toLower = c.toLower
  word : ∀ c v : Char, v ∈ TextTables.variants c → v.toNat < 128 → Unicode.isWord c = Unicode.isWord v
  space : ∀ c v : Char, v ∈ TextTables.variants c → Unicode.isSpace v = true ∨ Unicode.isSpace c = true → v = c
  decimal : ∀ c v : Char, v ∈ TextTables.variants c →
    (Unicode.decimal v).isSome = true ∨ (Unicode.decimal c).isSome = true → v = c
  word_ascii : ∀ c : Char, c.toNat < 128 → Unicode.isWord c = (c.isAlphanum || c == '_')
  decimal_ascii : ∀ c : Char, c.toNat < 128 → (Unicode.decimal c).isSome = c.isDigit
  word_of_decimal : ∀ c : Char, (Unicode.decimal c).isSome = true → Unicode.isWord c = true
  not_space_of_word : ∀ c : Char, Unicode.isWord c = true → Unicode.isSpace c = false
  blank : Unicode.isSpace ' ' = true
  newline : Unicode.isSpace '\n' = true
  hyphen : Unicode.isSpace '-' = false
  upper_ascii : ∀ c : Char, c.toNat < 128 → TextTables.upper c = [c.toUpper]
  upper_upper : ∀ c v : Char, v ∈ TextTables.upper c → TextTables.upper v = [v]

/-! ## What a phrase names -/

theorem anyCase_key : Pattern.ignoreCase Pattern.key =
    seqs [set isLetter, seq (seqs [set isLetterOrDigit]) (upTo (set isLetterOrDigit) 18),
      relaxed TextTables.variants (lit "-"), plus (set isDecimal)] := by
  rw [Pattern.ignoreCase, Pattern.key, Pattern.upperOrDigit, repeated]
  simp only [seqs, List.foldr, relaxed, relaxed_upTo]
  rfl

/-- What the pattern of a key takes is one. -/
theorem reaches_key {c c' : Cursor} (h : Reaches (Pattern.ignoreCase Pattern.key) c c') :
    ∃ t, KeyText t ∧ c.rest = t ++ c'.rest := by
  rw [anyCase_key] at h
  obtain ⟨c₁, ⟨x, rest, hx, hletter, rfl⟩, c₂, ⟨c₃, ⟨_, ⟨y, rest', hy, hsecond, rfl⟩, rfl⟩, hmore⟩, c₄, hhyphen, c₅, hdigits,
    rfl⟩ := h
  obtain ⟨xs, hlength, hxs, hsplit⟩ := reaches_upTo hmore
  obtain ⟨t, hspells, hsplit'⟩ := reaches_lit hhyphen
  obtain ⟨ds, hne, hds, hsplit''⟩ := reaches_plus hdigits
  obtain ⟨z, rfl, hz⟩ : ∃ z, t = [z] ∧ '-' ∈ TextTables.variants z := by
    unfold Spells at hspells
    obtain ⟨z, tail, hz, htail, rfl⟩ := List.forall₂_cons_right_iff.mp hspells
    exact ⟨z, by rw [List.forall₂_nil_right_iff.mp htail], hz⟩
  refine ⟨x :: ((y :: xs) ++ z :: ds), .mk _ _ _ _ hletter (List.forall_mem_cons.mpr ⟨hsecond, hxs⟩) (by simp)
    (Nat.succ_le_succ hlength) (by simpa [isHyphen] using hz) hds hne, ?_⟩
  dsimp only at hy hsplit
  rw [hx, hy, hsplit, hsplit', hsplit'']
  simp

/-- So what a group of it captures is. -/
theorem captures_key {n : Nat} {c c' : Cursor} (h : Reaches (Pattern.ignoreCase (group n Pattern.key)) c c') :
    ∃ t, KeyText t ∧ c'.groups = (n, t) :: c.groups := by
  obtain ⟨d, hkey, rfl⟩ := h
  obtain ⟨t, ht, hsplit⟩ := reaches_key hkey
  refine ⟨t, ht, ?_⟩
  dsimp only
  rw [take_consumed hsplit, Reaches.groups_eq hkey (by rw [← Pattern.ignoreCase, anyCase_key]; rfl)]

/-- A phrase names two keys. -/
theorem phrases_keys {answer blocked blocker : String} (h : (blocked, blocker) ∈ phrases answer) :
    IsKey blocked ∧ IsKey blocker := by
  obtain ⟨m, hm, hclaim⟩ := List.mem_map.mp h
  obtain ⟨c, c', _, hnone, ⟨c₁, h₁, c₂, hblocked, c₃, h₃, c₄, h₄, c₅, h₅, c₆, h₆, c₇, h₇, c₈, h₈, c₉, hblocker, c₁₀, h₁₀, hend⟩,
    hgroups⟩ := everywhere_reaches hm
  obtain ⟨a, ha, hfirst⟩ := captures_key hblocked
  obtain ⟨b, hb, hsecond⟩ := captures_key hblocker
  have hall : m.groups = [(2, b), (1, a)] := by
    rw [hgroups, hend, h₁₀.groups_eq rfl, hsecond, h₈.groups_eq rfl, h₇.groups_eq rfl, h₆.groups_eq rfl,
      h₅.groups_eq rfl, h₄.groups_eq rfl, h₃.groups_eq rfl, hfirst, h₁.groups_eq rfl, hnone]
  obtain ⟨rfl, rfl⟩ := Prod.mk.inj hclaim
  rw [Found.group, Found.group, hall]
  exact ⟨⟨a, ha, rfl⟩, ⟨b, hb, rfl⟩⟩

/-- One that is returned is one. -/
theorem dependencyClaims_subset {answer : String} : dependencyClaims answer ⊆ phrases answer :=
  (findAll_sublist.map _).subset

/-- Where there is one, one is returned. -/
theorem exists_claim {answer : String} {p : String × String} (h : p ∈ phrases answer) : ∃ q, q ∈ dependencyClaims answer := by
  refine List.exists_mem_of_ne_nil _ fun hnone => ?_
  rw [phrases, everywhere, everyFrom_eq_nil (List.map_eq_nil_iff.mp hnone)] at h
  cases h

end

/-! ## A text of nothing but phrases -/

def blockedByWords : List (List Char) := [['i', 's'], ['b', 'l', 'o', 'c', 'k', 'e', 'd'], ['b', 'y']]

/-- The words of phrases, each of which begins with the key that the one before ends with. -/
def phraseWords (a : List Char) (bs : List (List Char)) : List (List Char) := a :: bs.flatMap (blockedByWords ++ [·])

/-- An answer of nothing but such phrases. -/
def phrase (a : List Char) (bs : List (List Char)) : List Char := List.intercalate [' '] (phraseWords a bs)

/-- What follows in it on its first key. -/
def phraseEnd (b : List Char) : List Char := ' ' :: ("is".toList ++ ' ' :: ("blocked by".toList ++ ' ' :: b))

theorem phrase_nil (a : List Char) : phrase a [] = a := by
  simp [phrase, phraseWords, List.intercalate]

theorem phrase_cons (a b : List Char) (bs : List (List Char)) : phrase a (b :: bs) = a ++ phraseEnd (phrase b bs) := by
  simp [phrase, phraseWords, blockedByWords, phraseEnd, List.intercalate]

theorem phraseEnd_append (b rest : List Char) : phraseEnd (b ++ rest) = phraseEnd b ++ rest := by
  simp [phraseEnd]

section
variable {c : Char}

theorem isUpper_iff : c.isUpper = true ↔ 65 ≤ c.toNat ∧ c.toNat ≤ 90 := decide_eq_true_iff

theorem isLower_iff : c.isLower = true ↔ 97 ≤ c.toNat ∧ c.toNat ≤ 122 := by
  show (decide (97 ≤ c.toNat) && decide (c.toNat ≤ 122)) = true ↔ _
  rw [Bool.and_eq_true, decide_eq_true_iff, decide_eq_true_iff]

theorem isAlpha_iff : c.isAlpha = true ↔ c.isUpper = true ∨ c.isLower = true := Bool.or_eq_true_iff

theorem isDigit_iff : c.isDigit = true ↔ 48 ≤ c.toNat ∧ c.toNat ≤ 57 := by
  show (decide (48 ≤ c.toNat) && decide (c.toNat ≤ 57)) = true ↔ _
  rw [Bool.and_eq_true, decide_eq_true_iff, decide_eq_true_iff]

theorem toUpper_eq_self (h : c.isLower = false) : c.toUpper = c :=
  dif_neg fun hlower => by rw [isLower_iff.mpr hlower] at h; cases h

end

section
variable [TextTables] (tables : TextTables.Documented)
include tables

theorem isWord_of_isLetterOrDigit {c : Char} (h : isLetterOrDigit c = true) : Unicode.isWord c = true := by
  obtain ⟨v, hv, hin⟩ := List.any_eq_true.mp h
  have hascii : v.toNat < 128 := by
    rw [Bool.or_eq_true, isUpper_iff, isDigit_iff] at hin
    omega
  rw [tables.word c v hv hascii, tables.word_ascii v hascii, Char.isAlphanum]
  rcases Bool.or_eq_true_iff.mp hin with hupper | hdigit
  · simp [isAlpha_iff.mpr (Or.inl hupper)]
  · simp [hdigit]

theorem isWord_of_isLetter {c : Char} (h : isLetter c = true) : Unicode.isWord c = true := by
  refine isWord_of_isLetterOrDigit tables (List.any_eq_true.mpr ?_)
  obtain ⟨v, hv, hin⟩ := List.any_eq_true.mp h
  exact ⟨v, hv, by simp [hin]⟩

theorem isDecimal_eq {c : Char} : isDecimal c = (Unicode.decimal c).isSome := by
  rw [Bool.eq_iff_iff, isDecimal, List.any_eq_true]
  constructor
  · intro h
    obtain ⟨v, hv, hsome⟩ := h
    exact tables.decimal c v hv (Or.inl hsome) ▸ hsome
  · exact fun h => ⟨c, tables.self c, h⟩

theorem isWord_of_isDecimal {c : Char} (h : isDecimal c = true) : Unicode.isWord c = true :=
  tables.word_of_decimal c (isDecimal_eq tables ▸ h)

theorem hyphen_spec {c : Char} (h : isHyphen c = true) : Unicode.isWord c = false ∧ Unicode.isSpace c = false := by
  obtain ⟨v, hv, heq⟩ := List.any_eq_true.mp h
  obtain rfl : v = '-' := by simpa using heq
  refine ⟨by rw [tables.word c '-' hv (by decide), tables.word_ascii '-' (by decide)]; rfl, ?_⟩
  cases hs : Unicode.isSpace c with
  | false => rfl
  | true =>
    have hsame := tables.space c '-' hv (Or.inr hs)
    rw [← hsame, tables.hyphen] at hs
    cases hs

/-- A blank for a pattern is a blank. -/
theorem isBlank_eq {c : Char} : (TextTables.variants c).any Unicode.isSpace = Unicode.isSpace c := by
  rw [Bool.eq_iff_iff, List.any_eq_true]
  constructor
  · intro h
    obtain ⟨v, hv, hsome⟩ := h
    exact tables.space c v hv (Or.inl hsome) ▸ hsome
  · exact fun h => ⟨c, tables.self c, h⟩

/-- A key is without blanks. -/
theorem KeyText.not_space {t : List Char} (h : KeyText t) : ∀ c ∈ t, Unicode.isSpace c = false := by
  obtain ⟨x, xs, z, ds, hletter, hletters, _, _, hhyphen, hdigits, _⟩ := h
  intro c hc
  rcases List.mem_cons.mp hc with rfl | hc
  · exact tables.not_space_of_word c (isWord_of_isLetter tables hletter)
  rcases List.mem_append.mp hc with hc | hc
  · exact tables.not_space_of_word c (isWord_of_isLetterOrDigit tables (hletters c hc))
  rcases List.mem_cons.mp hc with rfl | hc
  · exact (hyphen_spec tables hhyphen).2
  · exact tables.not_space_of_word c (isWord_of_isDecimal tables (hdigits c hc))

/-- It starts with a character of a word and ends with a digit. -/
theorem KeyText.ends {t : List Char} (h : KeyText t) :
    (∃ x rest, t = x :: rest ∧ Unicode.isWord x = true) ∧ ∃ past d, t = past ++ [d] ∧ isDecimal d = true := by
  obtain ⟨x, xs, z, ds, hletter, _, _, _, _, hdigits, hne⟩ := h
  refine ⟨⟨x, _, rfl, isWord_of_isLetter tables hletter⟩, x :: (xs ++ z :: ds.dropLast), ds.getLast hne, ?_,
    hdigits _ (List.getLast_mem hne)⟩
  rw [List.cons_append, List.append_assoc, List.cons_append, List.dropLast_append_getLast hne]

/-- The pattern of a key first takes all of one, if no digit follows. -/
theorem leads_key {t rest : List Char} {before : Option Char} {groups : List (Nat × List Char)} (h : KeyText t)
    (hstop : rest.head?.any isDecimal = false) : ∃ d, Unicode.isWord d = true ∧
      Leads (Pattern.ignoreCase Pattern.key) ⟨before, t ++ rest, groups⟩ ⟨some d, rest, groups⟩ := by
  obtain ⟨x, xs, z, ds, hletter, hletters, hxs, hlength, hhyphen, hdigits, hne⟩ := h
  obtain ⟨y, ys, rfl⟩ := List.exists_cons_of_ne_nil hxs
  obtain ⟨hy, hys⟩ := List.forall_mem_cons.mp hletters
  -- the hyphen is no letter, so the letters end before it
  have hz : ((z :: (ds ++ rest)).head?).any isLetterOrDigit = false := by
    cases hin : isLetterOrDigit z with
    | false => exact hin
    | true => exact absurd (isWord_of_isLetterOrDigit tables hin) (by simp [(hyphen_spec tables hhyphen).1])
  have hspells : Spells TextTables.variants [z] "-" := by
    rw [Spells, show "-".toList = ['-'] from rfl]
    exact .cons (by simpa [isHyphen] using hhyphen) .nil
  refine ⟨ds.getLast hne, isWord_of_isDecimal tables (hdigits _ (List.getLast_mem hne)), ?_⟩
  rw [anyCase_key, List.cons_append, List.append_assoc, List.cons_append, List.cons_append]
  refine leads_seq (leads_set hletter) (leads_seq (leads_seq (leads_seq (leads_set hy) leads_empty)
    (leads_upTo (Nat.le_of_succ_le_succ hlength) hys hz)) (leads_seq (leads_lit hspells) (leads_seq ?_ leads_empty)))
  intro α next a hnext
  refine leads_plus hne hdigits hstop α next a ?_
  rw [List.getLast?_eq_some_getLast hne]
  exact hnext

/-- A word is a spelling of itself. -/
theorem spells_self (word : String) : Spells TextTables.variants word.toList word :=
  List.forall₂_same.mpr fun c _ => tables.self c

/-- Blanks, one of them, before something that is none. -/
theorem leads_blank {rest : List Char} {before : Option Char} {groups : List (Nat × List Char)}
    (hstop : rest.head?.any Unicode.isSpace = false) :
    Leads (Pattern.ignoreCase (plus Pattern.space)) ⟨before, ' ' :: rest, groups⟩ ⟨some ' ', rest, groups⟩ := by
  have hset : (fun c => (TextTables.variants c).any Unicode.isSpace) = Unicode.isSpace := funext fun c => isBlank_eq tables
  have hclass : Pattern.ignoreCase (plus Pattern.space) = plus (set Unicode.isSpace) := by
    rw [← hset]
    rfl
  rw [hclass]
  exact leads_plus (t := [' ']) (by simp) (by simp [tables.blank]) hstop

theorem blank_not_word : Unicode.isWord ' ' = false := by
  rw [tables.word_ascii ' ' (by decide)]
  rfl

theorem not_decimal_of_not_word {c : Char} (h : Unicode.isWord c = false) : isDecimal c = false := by
  cases hd : isDecimal c with
  | false => rfl
  | true => exact absurd (isWord_of_isDecimal tables hd) (by simp [h])

/-- The pattern first takes the whole of a phrase. -/
theorem leads_blockedBy {a b rest : List Char} {before : Option Char} (ha : KeyText a) (hb : KeyText b)
    (hbefore : before.any Unicode.isWord = false) (hrest : rest.head?.any Unicode.isWord = false) :
    ∃ before', Leads Pattern.blockedBy ⟨before, (a ++ phraseEnd b) ++ rest, []⟩ ⟨before', rest, [(2, b), (1, a)]⟩ := by
  have hblank := blank_not_word tables
  have hnoti : Unicode.isSpace 'i' = false := TextTables.space_ascii 'i' rfl
  have hnotb : Unicode.isSpace 'b' = false := TextTables.space_ascii 'b' rfl
  have hdecimal : rest.head?.any isDecimal = false := by
    cases rest with
    | nil => rfl
    | cons x rest => exact not_decimal_of_not_word tables hrest
  obtain ⟨⟨x, as, hx, hwordx⟩, _⟩ := ha.ends tables
  obtain ⟨⟨y, bs, hy, hwordy⟩, _⟩ := hb.ends tables
  obtain ⟨d, hd, hfirst⟩ : ∃ d, Unicode.isWord d = true ∧
      Leads (Pattern.ignoreCase Pattern.key) ⟨before, a ++ phraseEnd (b ++ rest), []⟩ ⟨some d, phraseEnd (b ++ rest), []⟩ :=
    leads_key tables ha (not_decimal_of_not_word tables hblank)
  obtain ⟨e, he, hsecond⟩ : ∃ e, Unicode.isWord e = true ∧
      Leads (Pattern.ignoreCase Pattern.key) ⟨some ' ', b ++ rest, [(1, a)]⟩ ⟨some e, rest, [(1, a)]⟩ :=
    leads_key tables hb hdecimal
  refine ⟨some e, ?_⟩
  rw [List.append_assoc, ← phraseEnd_append]
  refine leads_seq (leads_look ?_) (leads_seq (leads_group hfirst) (leads_seq (leads_look ?_)
    (leads_seq (leads_blank tables ?_) (leads_seq
      (leads_left (leads_seq (leads_lit (spells_self tables "is")) (leads_seq (leads_blank tables ?_) leads_empty)))
      (leads_seq (leads_lit (spells_self tables "blocked by")) (leads_seq (leads_blank tables ?_)
        (leads_seq (leads_look ?_) (leads_seq (leads_group hsecond) (leads_seq (leads_look ?_) leads_empty)))))))))
  · simp [boundary, hx, hwordx, hbefore]
  · simp [boundary, phraseEnd, hd, hblank]
  · simpa using hnoti
  · simpa using hnotb
  · simp [hy, tables.not_space_of_word y hwordy]
  · simp [boundary, hy, hwordy, hblank]
  · simp [boundary, he, hrest]

/-- Where no phrase begins behind its first one, that is the one that is returned. -/
theorem dependencyClaims_first {a b rest : List Char} (ha : KeyText a) (hb : KeyText b)
    (hrest : rest.head?.any Unicode.isWord = false) (hend : ∀ c c', c.rest <:+ rest → ¬ Reaches Pattern.blockedBy c c') :
    dependencyClaims (String.ofList ((a ++ phraseEnd b) ++ rest)) =
      [(upper (String.ofList a), upper (String.ofList b))] := by
  obtain ⟨before, hleads⟩ := leads_blockedBy tables ha hb (Option.any_none) hrest
  rw [dependencyClaims, String.toList_ofList, findAll_first (by simp [phraseEnd]) hleads hend]
  rfl

/-- Its only phrase is itself. -/
theorem dependencyClaims_phrase {a b : List Char} (ha : KeyText a) (hb : KeyText b) :
    dependencyClaims (String.ofList (phrase a [b])) = [(upper (String.ofList a), upper (String.ofList b))] := by
  have hend : ∀ c c', c.rest <:+ [] → ¬ Reaches Pattern.blockedBy c c' := by
    intro c c' hrest h
    obtain ⟨c₁, h₁, c₂, ⟨d, hkey, _⟩, _⟩ := h
    obtain ⟨t, ht, hsplit⟩ := reaches_key hkey
    obtain ⟨⟨x, rest, rfl, _⟩, _⟩ := ht.ends tables
    rw [h₁.2, List.suffix_nil.mp hrest] at hsplit
    cases hsplit
  rw [phrase_cons, phrase_nil, ← List.append_nil (a ++ phraseEnd b)]
  exact dependencyClaims_first tables ha hb rfl hend

/-! ## Its words -/

omit [TextTables] tables in
/-- Before a blank stands one of the words that are joined, and not the last. -/
theorem word_before_blank [Unicode] {words : List (List Char)} (hwords : ∀ w ∈ words, ∀ c ∈ w, Unicode.isSpace c = false)
    {pre post : List Char} {s : Char} (h : List.intercalate [' '] words = pre ++ s :: post)
    (hs : Unicode.isSpace s = true) : ∃ w ∈ words.dropLast, w <:+ pre := by
  induction words generalizing pre with
  | nil => simp [List.intercalate] at h
  | cons w words ih =>
    obtain ⟨hw, hwords⟩ := List.forall_mem_cons.mp hwords
    cases words with
    | nil =>
      have hin : s ∈ w := by
        have hjoin : w = pre ++ s :: post := by simpa [List.intercalate] using h
        rw [hjoin]
        simp
      simp [hw s hin] at hs
    | cons w' words =>
      have hjoin : w ++ ' ' :: List.intercalate [' '] (w' :: words) = pre ++ s :: post := by
        simpa [List.intercalate] using h
      rcases List.append_eq_append_iff.mp hjoin with ⟨t, rfl, hrest⟩ | ⟨t, rfl, hrest⟩
      · cases t with
        | nil => exact ⟨w, by simp, by simp⟩
        | cons y t =>
          obtain ⟨u, hu, hsuffix⟩ := ih hwords (List.cons.inj hrest).2
          exact ⟨u, by simp [List.dropLast_cons_cons, hu],
            hsuffix.trans ((List.suffix_cons y t).trans (List.suffix_append w _))⟩
      · cases t with
        | nil => exact ⟨pre ++ [], by simp, by simp⟩
        | cons y t =>
          obtain ⟨rfl, _⟩ := List.cons.inj hrest
          simp [hw s (by simp)] at hs

omit tables in
/-- The words of phrases are keys and the words between them. -/
theorem mem_phraseWords {a : List Char} {bs : List (List Char)} {w : List Char} (ha : KeyText a)
    (hbs : ∀ b ∈ bs, KeyText b) (hw : w ∈ phraseWords a bs) : KeyText w ∨ w ∈ blockedByWords := by
  rcases List.mem_cons.mp hw with rfl | hw
  · exact Or.inl ha
  obtain ⟨b, hb, hw⟩ := List.mem_flatMap.mp hw
  rcases List.mem_append.mp hw with hw | hw
  · exact Or.inr hw
  · exact Or.inl (List.mem_singleton.mp hw ▸ hbs b hb)

omit tables in
theorem blockedByWords_not_space : ∀ w ∈ blockedByWords, ∀ c ∈ w, Unicode.isSpace c = false := by
  have hletters : ∀ w ∈ blockedByWords, w.all Char.isAlphanum = true := by decide
  exact fun w hw c hc => TextTables.space_ascii c (List.all_eq_true.mp (hletters w hw) c hc)

theorem phraseWords_not_space {a : List Char} {bs : List (List Char)} (ha : KeyText a) (hbs : ∀ b ∈ bs, KeyText b) :
    ∀ w ∈ phraseWords a bs, ∀ c ∈ w, Unicode.isSpace c = false := by
  intro w hw
  rcases mem_phraseWords ha hbs hw with hkey | hw
  · exact hkey.not_space tables
  · exact blockedByWords_not_space w hw

theorem newline_not_mem {a : List Char} {bs : List (List Char)} (ha : KeyText a) (hbs : ∀ b ∈ bs, KeyText b) :
    '\n' ∉ phrase a bs := by
  have hkey : ∀ {t}, KeyText t → '\n' ∉ t := by
    intro t ht hin
    have hspace := ht.not_space tables _ hin
    rw [tables.newline] at hspace
    cases hspace
  induction bs generalizing a with
  | nil =>
    rw [phrase_nil]
    exact hkey ha
  | cons b bs ih =>
    obtain ⟨hb, hbs⟩ := List.forall_mem_cons.mp hbs
    rw [phrase_cons, phraseEnd]
    simpa using ⟨hkey ha, ih hb hbs⟩

/-- Where a pattern asks for blanks there is one. -/
theorem reaches_blank {c c' : Cursor} (h : Reaches (Pattern.ignoreCase (plus Pattern.space)) c c') :
    ∃ s rest, c.rest = s :: rest ∧ Unicode.isSpace s = true := by
  obtain ⟨_, ⟨s, rest, hrest, hs, _⟩, _⟩ := h
  exact ⟨s, rest, hrest, isBlank_eq tables ▸ hs⟩

/-! ## Phrases that begin inside another -/

/-- Before a blank of what follows on a key there is no digit. -/
theorem not_digit_before_blank {b pre post : List Char} {d s : Char} (hb : KeyText b)
    (h : phraseEnd b = (pre ++ [d]) ++ s :: post) (hs : Unicode.isSpace s = true) : isDecimal d = false := by
  have hwords : ∀ w ∈ blockedByWords ++ [b], ∀ c ∈ w, Unicode.isSpace c = false := by
    intro w hw
    rcases List.mem_append.mp hw with hw | hw
    · exact blockedByWords_not_space w hw
    · exact List.mem_singleton.mp hw ▸ hb.not_space tables
  have hjoin : ' ' :: List.intercalate [' '] (blockedByWords ++ [b]) = (pre ++ [d]) ++ s :: post := by
    rw [← h]
    simp [blockedByWords, phraseEnd, List.intercalate]
  cases pre with
  | nil =>
    obtain ⟨rfl, _⟩ := List.cons.inj hjoin
    exact not_decimal_of_not_word tables (blank_not_word tables)
  | cons x pre =>
    obtain ⟨w, hw, hsuffix⟩ := word_before_blank hwords (List.cons.inj hjoin).2 hs
    rw [List.dropLast_concat] at hw
    have hlast : ∀ w ∈ blockedByWords, w.getLast?.any (fun c => c.toNat < 128 && !c.isDigit) = true := by decide
    obtain ⟨c, hc, hletter⟩ := (Option.any_eq_true _ _).mp (hlast w hw)
    rw [Bool.and_eq_true, decide_eq_true_eq, Bool.not_eq_true'] at hletter
    obtain ⟨u, hu⟩ := hsuffix
    have hsame : c = d := by
      rw [← List.dropLast_append_getLast? c hc, ← List.append_assoc] at hu
      simpa using List.append_inj_right' hu rfl
    rw [← hsame, isDecimal_eq tables, tables.decimal_ascii c hletter.1, hletter.2]

/-- No phrase begins in what follows on a key. -/
theorem not_reaches_phraseEnd {b : List Char} (hb : KeyText b) {c c' : Cursor} (hrest : c.rest <:+ phraseEnd b) :
    ¬ Reaches Pattern.blockedBy c c' := by
  intro h
  obtain ⟨c₁, h₁, c₂, ⟨d, hkey, hd⟩, c₃, h₃, c₄, hblank, _⟩ := h
  obtain ⟨t, ht, hsplit⟩ := reaches_key hkey
  obtain ⟨s, post, hpost, hs⟩ := reaches_blank tables hblank
  obtain ⟨_, past, e, rfl, he⟩ := ht.ends tables
  obtain ⟨u, hu⟩ := hrest
  have hsame : c₃.rest = d.rest := by rw [h₃.2, hd]
  have hjoin : phraseEnd b = ((u ++ past) ++ [e]) ++ s :: post := by
    rw [← hu, ← h₁.2, hsplit, ← hsame, hpost]
    simp
  rw [not_digit_before_blank tables hb hjoin hs] at he
  cases he

/-- Of two phrases, the second of which begins with the key that the first ends with, the
    first is returned. -/
theorem dependencyClaims_overlap {a b c : List Char} (ha : KeyText a) (hb : KeyText b) (hc : KeyText c) :
    dependencyClaims (String.ofList (phrase a [b, c])) = [(upper (String.ofList a), upper (String.ofList b))] := by
  rw [phrase_cons, phrase_cons, phrase_nil, phraseEnd_append, ← List.append_assoc]
  exact dependencyClaims_first tables ha hb (blank_not_word tables) fun _ _ hrest => not_reaches_phraseEnd tables hc hrest

/-- And the second is a phrase. -/
theorem overlap_mem_phrases {a b c : List Char} (hb : KeyText b) (hc : KeyText c) :
    (upper (String.ofList b), upper (String.ofList c)) ∈ phrases (String.ofList (phrase a [b, c])) := by
  obtain ⟨before, hleads⟩ : ∃ before, Leads Pattern.blockedBy ⟨some ' ', (b ++ phraseEnd c) ++ [], []⟩
      ⟨before, [], [(2, c), (1, b)]⟩ := leads_blockedBy tables hb hc (blank_not_word tables) rfl
  have htext : phrase a [b, c] = (a ++ " is blocked by ".toList) ++ ((b ++ phraseEnd c) ++ []) := by
    rw [phrase_cons, phrase_cons, phrase_nil]
    simp [phraseEnd]
  have hblank : (a ++ " is blocked by ".toList).getLast? = some ' ' := by
    rw [List.getLast?_append]
    rfl
  obtain ⟨m, hm, hgroups⟩ := mem_everywhere (hblank ▸ hleads _ some _ rfl)
  refine List.mem_map.mpr ⟨m, ?_, ?_⟩
  · rw [String.toList_ofList, htext]
    exact hm
  · rw [namedIssues, Found.group, Found.group, hgroups]
    rfl

/-! ## Keys, and texts in capitals -/

omit tables in
theorem upper_eq_self {t : List Char} (h : ∀ c ∈ t, TextTables.upper c = [c]) : upper (String.ofList t) = String.ofList t := by
  rw [upper, String.toList_ofList, List.flatMap_congr h, List.flatMap_singleton']

/-- What is found in capitals is in capitals. -/
theorem upper_of_infix {t : List Char} {s : String} (h : t <:+: (upper s).toList) :
    upper (String.ofList t) = String.ofList t := by
  refine upper_eq_self fun v hv => ?_
  have hin := h.subset hv
  rw [upper, String.toList_ofList] at hin
  obtain ⟨c, _, hc⟩ := List.mem_flatMap.mp hin
  exact tables.upper_upper c v hc

theorem upper_issueKey {key s : String} (h : key ∈ issueKeys (upper s)) : upper key = key := by
  obtain ⟨m, hm, rfl⟩ := List.mem_map.mp (List.mem_eraseDups.mp h)
  exact upper_of_infix tables (findAll_text hm)

/-- A key with so many digits more than one. -/
def keyOfOnes (y : Char) (n : Nat) : List Char := 'A' :: y :: '-' :: List.replicate (n + 1) '1'

theorem keyText_keyOfOnes {y : Char} (hy : y.isUpper = true) (n : Nat) : KeyText (keyOfOnes y n) := by
  have hself : ∀ (c : Char) (p : Char → Bool), p c = true → (TextTables.variants c).any p = true := fun c p hc =>
    List.any_eq_true.mpr ⟨c, tables.self c, hc⟩
  have hone : isDecimal '1' = true := by
    rw [isDecimal_eq tables, tables.decimal_ascii '1' (by decide)]
    rfl
  refine .mk 'A' [y] '-' (List.replicate (n + 1) '1') (hself 'A' _ rfl) ?_ (by simp) (by simp) (hself '-' _ rfl) ?_ (by simp)
  · exact List.forall_mem_singleton.mpr (hself y _ (by rw [hy]; rfl))
  · exact fun d hd => List.eq_of_mem_replicate hd ▸ hone

theorem upper_keyOfOnes {y : Char} (hy : y.isUpper = true) (n : Nat) :
    upper (String.ofList (keyOfOnes y n)) = String.ofList (keyOfOnes y n) := by
  have hcapital : ∀ c : Char, c.toNat < 128 → c.isLower = false → TextTables.upper c = [c] := by
    intro c hc hlower
    rw [tables.upper_ascii c hc, toUpper_eq_self hlower]
  refine upper_eq_self fun c hc => ?_
  rcases List.mem_cons.mp hc with rfl | hc
  · exact hcapital 'A' (by decide) rfl
  rcases List.mem_cons.mp hc with rfl | hc
  · rw [isUpper_iff] at hy
    refine hcapital c (by omega) (Bool.eq_false_iff.mpr fun hlower => ?_)
    rw [isLower_iff] at hlower
    omega
  rcases List.mem_cons.mp hc with rfl | hc
  · exact hcapital '-' (by decide) rfl
  · exact List.eq_of_mem_replicate hc ▸ hcapital '1' (by decide) rfl

end

/-! ## Of ASCII characters -/

/-- What holds of the 128 characters of ASCII holds of each. -/
theorem ascii_induction {P : Char → Prop} (h : ∀ n < 128, P (Char.ofNat n)) {c : Char} (hc : c.toNat < 128) : P c := by
  rw [← Char.ofNat_toNat c]
  exact h c.toNat hc

theorem ascii_of_isAlpha {c : Char} (h : c.isAlpha = true) : c.toNat < 128 := by
  rw [isAlpha_iff, isUpper_iff, isLower_iff] at h
  omega

theorem letters_ascii {c : Char} (h : c.isAlpha = true) : c.toLower.isAlpha = true ∧ c.toUpper.isAlpha = true ∧
    c.isDigit = false ∧ c.toLower.toLower = c.toLower ∧ c.toUpper.toLower = c.toLower := by
  have hall : c.isAlpha = true → c.toLower.isAlpha = true ∧ c.toUpper.isAlpha = true ∧ c.isDigit = false ∧
      c.toLower.toLower = c.toLower ∧ c.toUpper.toLower = c.toLower :=
    ascii_induction (P := fun c => c.isAlpha = true → c.toLower.isAlpha = true ∧ c.toUpper.isAlpha = true ∧
      c.isDigit = false ∧ c.toLower.toLower = c.toLower ∧ c.toUpper.toLower = c.toLower) (by decide +kernel)
      (ascii_of_isAlpha h)
  exact hall h

/-- An ASCII character other than a letter is its only variant. -/
theorem variants_ascii {c v : Char} (h : v ∈ [c, c.toLower, c.toUpper]) :
    v = c ∨ (v.isAlpha = true ∧ c.isAlpha = true ∧ v.toLower = c.toLower) := by
  cases hc : c.isAlpha with
  | true =>
    obtain ⟨hlower, hupper, _, hlower', hupper'⟩ := letters_ascii hc
    rcases List.mem_cons.mp h with rfl | h
    · exact Or.inl rfl
    rcases List.mem_pair.mp h with rfl | rfl
    · exact Or.inr ⟨hlower, rfl, hlower'⟩
    · exact Or.inr ⟨hupper, rfl, hupper'⟩
  | false =>
    have hnone := not_or.mp (isAlpha_iff.not.mp (Bool.eq_false_iff.mp hc))
    have hlower : c.toLower = c := dif_neg fun h => hnone.1 (isUpper_iff.mpr h)
    have hupper : c.toUpper = c := toUpper_eq_self (Bool.eq_false_iff.mpr hnone.2)
    simpa [hlower, hupper] using h

theorem toUpper_toUpper (c : Char) : c.toUpper.toUpper = c.toUpper := by
  cases h : c.isLower with
  | false => rw [toUpper_eq_self h, toUpper_eq_self h]
  | true =>
    exact ascii_induction (P := fun c => c.toUpper.toUpper = c.toUpper) (by decide +kernel)
      (ascii_of_isAlpha (isAlpha_iff.mpr (Or.inr h)))

theorem documented_ascii : letI := TextTables.ascii; TextTables.Documented := by
  let _ := TextTables.ascii
  have halnum : ∀ c : Char, c.isAlpha = true → c.isAlphanum = true := fun c hc => by rw [Char.isAlphanum, hc]; rfl
  have hspace : ∀ c : Char, c.isAlpha = true → Unicode.isSpace c = false := fun c hc =>
    isWhitespace_of_isAlphanum (halnum c hc)
  have hdecimal : ∀ c : Char, (Unicode.decimal c).isSome = c.isDigit := by
    intro c
    show (if c.isDigit = true then some (c.toNat - '0'.toNat) else none).isSome = c.isDigit
    cases c.isDigit <;> rfl
  constructor
  · exact fun c => List.mem_cons_self
  · intro c v hv _ _
    rcases variants_ascii hv with rfl | ⟨_, _, hlower⟩
    · rfl
    · exact hlower
  · intro c v hv _
    rcases variants_ascii hv with rfl | ⟨hv, hc, _⟩
    · rfl
    · show (c.isAlphanum || c == '_') = (v.isAlphanum || v == '_')
      rw [halnum c hc, halnum v hv]
      rfl
  · intro c v hv hs
    rcases variants_ascii hv with rfl | ⟨hv, hc, _⟩
    · rfl
    · rw [hspace v hv, hspace c hc] at hs
      simp at hs
  · intro c v hv hd
    rcases variants_ascii hv with rfl | ⟨hv, hc, _⟩
    · rfl
    · rw [hdecimal, hdecimal, (letters_ascii hv).2.2.1, (letters_ascii hc).2.2.1] at hd
      simp at hd
  · exact fun c _ => rfl
  · exact fun c _ => hdecimal c
  · intro c hc
    rw [hdecimal] at hc
    show (c.isAlphanum || c == '_') = true
    rw [Char.isAlphanum, hc, Bool.or_true]
    rfl
  · intro c hc
    rcases Bool.or_eq_true_iff.mp hc with hc | hc
    · exact isWhitespace_of_isAlphanum hc
    · rw [show c = '_' from beq_iff_eq.mp hc]
      rfl
  · rfl
  · rfl
  · rfl
  · exact fun c _ => rfl
  · intro c v hv
    obtain rfl := List.mem_singleton.mp hv
    exact congrArg (fun c => [c]) (toUpper_toUpper c)

section
attribute [local instance] TextTables.ascii

/-- A key has a hyphen, no blank, and at least four characters. -/
theorem isKey_ascii {key : String} (h : IsKey key) :
    '-' ∈ key.toList ∧ ' ' ∉ key.toList ∧ 4 ≤ key.toList.length := by
  obtain ⟨t, ht, rfl⟩ := h
  have hupper : (upper (String.ofList t)).toList = t.map Char.toUpper := by
    rw [upper, String.toList_ofList, String.toList_ofList]
    exact List.map_eq_flatMap.symm
  have hspaces := ht.not_space documented_ascii
  have hvariants : ∀ c v : Char, v ∈ TextTables.variants c → v.isAlpha = false → v = c := by
    intro c v hv hletter
    rcases variants_ascii hv with h | h
    · exact h
    · rw [h.1] at hletter
      cases hletter
  have hself : ∀ c : Char, c.toUpper ∈ TextTables.variants c := fun c =>
    List.mem_cons_of_mem _ (List.mem_cons_of_mem _ List.mem_cons_self)
  rw [hupper]
  obtain ⟨x, xs, z, ds, _, _, hxs, _, hhyphen, _, hds⟩ := ht
  refine ⟨?_, fun hin => ?_, ?_⟩
  · obtain ⟨v, hv, heq⟩ := List.any_eq_true.mp hhyphen
    obtain rfl : v = '-' := by simpa using heq
    rw [← hvariants z '-' hv rfl]
    simp
  · obtain ⟨c, hc, hblank⟩ := List.mem_map.mp hin
    have hsame := hvariants c ' ' (hblank ▸ hself c) rfl
    rw [← hsame] at hc
    exact absurd (hspaces ' ' hc) (by decide)
  · have := List.length_pos_of_ne_nil hxs
    have := List.length_pos_of_ne_nil hds
    simp only [List.length_map, List.length_cons, List.length_append]
    omega

end

end WorkforceRisk.Evidence

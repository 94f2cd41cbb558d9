import DeviceCatalog.CSource.Declaration
import DeviceCatalog.CSource.Item
import DeviceCatalog.Proofs.DelimiterSearch
import DeviceCatalog.Proofs.Pieces
import Mathlib.Data.List.Basic

/-!
# Emitted tokens read back

A raw literal ends where it was meant to end, whatever its text (`readRaw?_rawLiteral`): the text does not hold the ending, and the
ending cannot begin in the text and reach into itself, for its parenthesis occurs in it only once. `ReadsAs` says of a piece of text
that it reads as some tokens whatever stands behind it; such pieces can be put one behind the other. A text that has tokens keeps them in
front of anything that a word cannot go on with (`readsBefore_of_tokens?`).
-/

namespace DeviceCatalog

namespace CSource

/-! ## Tokens one by one -/

theorem tokens?_cons_of_isSpace {c : Char} (h : isSpace c = true) (cs : List Char) : tokens? (c :: cs) = tokens? cs := by
  rw [tokens?, if_pos h]

/-- The first token of a text comes before those of what stands behind it. -/
theorem tokens?_cons {c : Char} {cs rest : List Char} {t : Token} (hspace : isSpace c = false)
    (h : nextToken? c cs = some (t, rest)) : tokens? (c :: cs) = (tokens? rest).map (t :: ·) := by
  rw [tokens?, if_neg (by simp [hspace])]
  split
  · rename_i heq
    cases h.symm.trans heq
    rfl
  · rename_i heq
    cases h.symm.trans heq

/-! ## Raw literals -/

/-- The delimiter of a literal is chosen so that the text does not hold its ending. -/
theorem not_occursIn_rawDelimiter (text : List Char) : Text.occursIn (rawEnding (rawDelimiter text)) text = false := by
  rw [← Bool.not_eq_true, Text.occursIn_iff]
  rcases rawDelimiter_cases text with ⟨hplain, hdelimiter⟩ | ⟨-, n, hn, hdelimiter⟩
  · rwa [hdelimiter]
  · rw [hdelimiter]
    exact hn.ending_free

/-- A delimiter with a name is made of the letters of the word and of underscores. -/
theorem mem_namedDelimiter {c : Char} {n : Nat} (h : c ∈ namedDelimiter n) : c = 'r' ∨ c = 'a' ∨ c = 'w' ∨ c = '_' := by
  simp only [namedDelimiter, List.mem_append, List.mem_cons, List.not_mem_nil, or_false, List.mem_replicate] at h
  tauto

theorem mem_rawDelimiter {c : Char} {text : List Char} (h : c ∈ rawDelimiter text) :
    c = 'r' ∨ c = 'a' ∨ c = 'w' ∨ c = '_' := by
  rcases rawDelimiter_cases text with ⟨-, hdelimiter⟩ | ⟨-, n, -, hdelimiter⟩
  · rw [hdelimiter] at h
    cases h
  · rw [hdelimiter] at h
    exact mem_namedDelimiter h

/-- A delimiter holds no parenthesis. -/
theorem notMem_rawDelimiter (text : List Char) : '(' ∉ rawDelimiter text ∧ ')' ∉ rawDelimiter text := by
  constructor <;> (intro h; rcases mem_rawDelimiter h with h | h | h | h <;> cases h)

/-- The first occurrence of an ending is the one behind a text that does not hold it, if its first character is nowhere else in it. -/
theorem cutEnding?_append {first : Char} {others text : List Char} (hfirst : first ∉ others)
    (htext : Text.occursIn (first :: others) text = false) (rest : List Char) :
    cutEnding? (first :: others) (text ++ (first :: others ++ rest)) = some (text, rest) := by
  induction text with
  | nil => simp [cutEnding?]
  | cons c cs ih =>
    rw [Text.occursIn, Bool.or_eq_false_iff] at htext
    obtain ⟨hhere, hlater⟩ := htext
    have hprefix : ¬ (first :: others) <+: (c :: cs) ++ (first :: others ++ rest) := by
      rintro ⟨t, ht⟩
      rcases List.append_eq_append_iff.1 ht with ⟨inside, hinside, -⟩ | ⟨beyond, hbeyond, hbehind⟩
      · -- the whole ending inside the text
        have : (first :: others) <+: c :: cs := ⟨inside, hinside.symm⟩
        rw [← List.isPrefixOf_iff_prefix, hhere] at this
        cases this
      · -- it begins in the text and reaches into itself
        cases beyond with
        | nil =>
          rw [List.append_nil] at hbeyond
          have : (first :: others) <+: c :: cs := ⟨[], by rw [hbeyond, List.append_nil]⟩
          rw [← List.isPrefixOf_iff_prefix, hhere] at this
          cases this
        | cons b beyond =>
          rw [List.cons_append, List.cons.injEq] at hbeyond
          rw [List.cons_append, List.cons_append, List.cons.injEq] at hbehind
          refine hfirst ?_
          rw [hbeyond.2, hbehind.1]
          simp
    rw [List.cons_append, cutEnding?, if_neg, ih hlater]
    · rfl
    · rw [List.isPrefixOf_iff_prefix]
      exact hprefix

/-- Reading a raw literal gives its text and leaves what stands behind it. -/
theorem readRaw?_rawLiteral (text rest : List Char) :
    readRaw? (rawDelimiter text ++ '(' :: text ++ rawEnding (rawDelimiter text) ++ rest) = some (text, rest) := by
  obtain ⟨hopen, hparen⟩ := notMem_rawDelimiter text
  have hclose : ')' ∉ rawDelimiter text ++ ['"'] := by
    rw [List.mem_append, List.mem_singleton]
    rintro (h | h)
    · exact hparen h
    · cases h
  have hcut := cutEnding?_append hclose (not_occursIn_rawDelimiter text) rest
  rw [List.append_assoc, List.append_assoc, readRaw?, List.cons_append, Text.cutFirst?_append hopen]
  exact hcut

/-! ## Texts in front of others -/

theorem length_le_of_cutEnding? {ending cs a b : List Char} (h : cutEnding? ending cs = some (a, b)) : ending.length ≤ cs.length := by
  induction cs generalizing a with
  | nil => cases h
  | cons c cs ih =>
    rw [cutEnding?] at h
    split at h
    · rename_i hprefix
      exact (List.isPrefixOf_iff_prefix.1 hprefix).length_le
    · obtain ⟨⟨a', b'⟩, hcut, heq⟩ := Option.map_eq_some_iff.1 h
      cases heq
      exact Nat.le_succ_of_le (ih hcut)

/-- What stands behind a text does not move the first ending in it. -/
theorem cutEnding?_append_right {ending cs a b : List Char} (h : cutEnding? ending cs = some (a, b)) (rest : List Char) :
    cutEnding? ending (cs ++ rest) = some (a, b ++ rest) := by
  induction cs generalizing a with
  | nil => cases h
  | cons c cs ih =>
    have hlength := length_le_of_cutEnding? h
    have hhere : ending <+: c :: (cs ++ rest) ↔ ending <+: c :: cs :=
      ⟨fun hp => List.prefix_of_prefix_length_le hp (List.prefix_append (c :: cs) rest) hlength,
        fun hp => hp.trans (List.prefix_append (c :: cs) rest)⟩
    simp only [cutEnding?, List.isPrefixOf_iff_prefix] at h
    simp only [List.cons_append, cutEnding?, List.isPrefixOf_iff_prefix, hhere]
    split at h
    · rename_i hprefix
      cases h
      rw [if_pos hprefix, ← List.cons_append, List.drop_append_of_le_length hlength]
    · rename_i hprefix
      obtain ⟨⟨a', b'⟩, hcut, hab⟩ := Option.map_eq_some_iff.1 h
      cases hab
      rw [if_neg hprefix, ih hcut]
      rfl

/-- What stands behind a text does not move the first separator in it. -/
theorem cutFirst?_append_right {sep : Char} {cs a b : List Char} (h : Text.cutFirst? sep cs = some (a, b)) (rest : List Char) :
    Text.cutFirst? sep (cs ++ rest) = some (a, b ++ rest) := by
  induction cs generalizing a with
  | nil => cases h
  | cons c cs ih =>
    rw [Text.cutFirst?] at h
    rw [List.cons_append, Text.cutFirst?]
    split at h
    · rename_i hc
      cases h
      exact if_pos hc
    · rename_i hc
      obtain ⟨⟨a', b'⟩, hcut, hab⟩ := Option.map_eq_some_iff.1 h
      cases hab
      rw [if_neg hc, ih hcut]
      rfl

/-- What stands behind a raw literal does not change it. -/
theorem readRaw?_append {cs s more : List Char} (h : readRaw? cs = some (s, more)) (rest : List Char) :
    readRaw? (cs ++ rest) = some (s, more ++ rest) := by
  unfold readRaw? at h
  split at h
  · rename_i delimiter body hcut
    rw [readRaw?, cutFirst?_append_right hcut]
    exact cutEnding?_append_right h rest
  · cases h

/-- A run that ends inside a text or at its end is the same with something behind it that does not go on. -/
theorem takeWhile_append_of_ends {p : Char → Bool} {rest : List Char} (h : ∀ c ∈ rest.head?, p c = false) (cs : List Char) :
    (cs ++ rest).takeWhile p = cs.takeWhile p ∧ (cs ++ rest).dropWhile p = cs.dropWhile p ++ rest := by
  induction cs with
  | nil =>
    cases rest with
    | nil => exact ⟨rfl, rfl⟩
    | cons c rest => simp [h c rfl]
  | cons c cs ih =>
    by_cases hc : p c = true
    · simp [hc, ih]
    · simp [hc]

/-- A token reads the same in front of anything that a word cannot go on with. -/
theorem nextToken?_append {c : Char} {cs more rest : List Char} {t : Token} (h : nextToken? c cs = some (t, more))
    (hrest : ∀ d ∈ rest.head?, isNameChar d = false ∧ d ≠ '"') : nextToken? c (cs ++ rest) = some (t, more ++ rest) := by
  obtain ⟨htake, hdrop⟩ := takeWhile_append_of_ends (fun d hd => (hrest d hd).1) cs
  unfold nextToken? at h ⊢
  rw [htake, hdrop]
  split at h
  · split at h
    · rename_i hword hbehind
      obtain ⟨⟨s, r⟩, hraw, heq⟩ := Option.map_eq_some_iff.1 h
      cases heq
      simp [*, readRaw?_append hraw]
    · rename_i hc _ _ hraw
      cases h
      rw [if_pos hc]
      split
      · -- only a quote behind a lone `R` would make another token of the word
        rename_i body hR hquote
        exfalso
        cases hbehind : cs.dropWhile isNameChar with
        | nil =>
          rw [hbehind] at hquote
          exact (hrest _ (by rw [← List.nil_append rest, hquote]; rfl)).2 rfl
        | cons d ds =>
          rw [hbehind] at hquote
          obtain ⟨rfl, -⟩ := List.cons.inj hquote
          exact hraw ds hR hbehind
      · rfl
  · rename_i hc
    cases h
    rw [if_neg hc]

/-! ## Pieces of text -/

/-- The piece of text reads as the tokens, whatever stands behind it. -/
def ReadsAs (cs : List Char) (ts : List Token) : Prop :=
  ∀ rest, tokens? (cs ++ rest) = (tokens? rest).map (ts ++ ·)

/-- Pieces one behind the other read as their tokens one behind the other. -/
theorem ReadsAs.append {cs ds : List Char} {ts us : List Token} (hc : ReadsAs cs ts) (hd : ReadsAs ds us) :
    ReadsAs (cs ++ ds) (ts ++ us) := by
  intro rest
  rw [List.append_assoc, hc, hd, Option.map_map]
  refine congrArg (Option.map · _) (funext fun vs => ?_)
  exact (List.append_assoc ts us vs).symm

/-- Pieces made for the items of a list read as the tokens of these items, in order. -/
theorem ReadsAs.flatMap {α : Type} {f : α → List Char} {g : α → List Token} {xs : List α} (h : ∀ x ∈ xs, ReadsAs (f x) (g x)) :
    ReadsAs (xs.flatMap f) (xs.flatMap g) := by
  induction xs with
  | nil =>
    intro rest
    exact Option.map_id'.symm
  | cons x xs ih =>
    rw [List.flatMap_cons, List.flatMap_cons]
    exact (h x List.mem_cons_self).append (ih fun y hy => h y (List.mem_cons_of_mem x hy))

/-- The token that a single character makes; blanks make none. -/
def markTokens (c : Char) : List Token :=
  if isSpace c then [] else [.mark c]

/-- A mark reads as itself, a blank as nothing. -/
theorem readsAs_mark {c : Char} (h : isNameChar c = false) : ReadsAs [c] (markTokens c) := by
  intro rest
  rw [List.singleton_append, markTokens]
  by_cases hspace : isSpace c = true
  · rw [tokens?_cons_of_isSpace hspace, if_pos hspace]
    exact Option.map_id'.symm
  · have hnext : nextToken? c rest = some (.mark c, rest) := by simp [nextToken?, h]
    rw [tokens?_cons (by simpa using hspace) hnext, if_neg hspace]
    rfl

/-- Blanks read as nothing. -/
theorem readsAs_spaces {cs : List Char} (h : ∀ c ∈ cs, isSpace c = true) : ReadsAs cs [] := by
  intro rest
  induction cs with
  | nil => exact Option.map_id'.symm
  | cons c cs ih =>
    rw [List.cons_append, tokens?_cons_of_isSpace (h c List.mem_cons_self)]
    exact ih fun d hd => h d (List.mem_cons_of_mem c hd)

/-- The characters make one word. -/
def IsWord (w : List Char) : Prop :=
  w ≠ [] ∧ w.all isNameChar = true

/-- A word goes on with the characters of words. -/
theorem IsWord.append {start rest : String} (h : IsWord start.toList) (hrest : ∀ c ∈ rest.toList, isNameChar c = true) :
    IsWord (start ++ rest).toList := by
  obtain ⟨hne, hall⟩ := h
  rw [String.toList_append]
  exact ⟨List.append_ne_nil_of_left_ne_nil hne _, by rw [List.all_append, hall, List.all_eq_true.2 hrest]; rfl⟩

theorem not_isSpace_of_isNameChar {c : Char} (h : isNameChar c = true) : isSpace c = false := by
  by_contra hspace
  simp only [isSpace, Bool.not_eq_false, Bool.or_eq_true, decide_eq_true_eq] at hspace
  rcases hspace with ((rfl | rfl) | rfl) | rfl <;> exact absurd h (by decide)

/-- The piece of text reads as the tokens in front of anything that a word cannot go on with. -/
def ReadsBefore (cs : List Char) (ts : List Token) : Prop :=
  ∀ rest, (∀ c ∈ rest.head?, isNameChar c = false ∧ c ≠ '"') → tokens? (cs ++ rest) = (tokens? rest).map (ts ++ ·)

/-- With a mark behind it a text reads as its tokens whatever follows. -/
theorem ReadsBefore.append_mark {cs : List Char} {ts : List Token} (h : ReadsBefore cs ts) {c : Char} (hc : isNameChar c = false)
    (hquote : c ≠ '"') : ReadsAs (cs ++ [c]) (ts ++ markTokens c) := by
  intro rest
  have hmark := readsAs_mark hc rest
  rw [List.singleton_append] at hmark
  rw [List.append_assoc, List.singleton_append, h (c :: rest) (by simp [hc, hquote]), hmark, Option.map_map]
  refine congrArg (Option.map · _) (funext fun vs => ?_)
  exact (List.append_assoc ts (markTokens c) vs).symm

/-- A piece may stand in front of a text that reads before others. -/
theorem ReadsAs.append_before {cs ds : List Char} {ts us : List Token} (hc : ReadsAs cs ts) (hd : ReadsBefore ds us) :
    ReadsBefore (cs ++ ds) (ts ++ us) := by
  intro rest hrest
  rw [List.append_assoc, hc, hd rest hrest, Option.map_map]
  refine congrArg (Option.map · _) (funext fun vs => ?_)
  exact (List.append_assoc ts us vs).symm

/-- What reads as some tokens whatever stands behind it also reads so before a mark. -/
theorem ReadsAs.before {cs : List Char} {ts : List Token} (h : ReadsAs cs ts) : ReadsBefore cs ts :=
  fun rest _ => h rest

/-- A text that reads as some tokens in front of nothing has these tokens. -/
theorem ReadsBefore.tokens?_eq {cs : List Char} {ts : List Token} (h : ReadsBefore cs ts) : tokens? cs = some ts := by
  have hnil := h [] (by simp)
  rw [List.append_nil] at hnil
  rw [hnil, tokens?, Option.map_some, List.append_nil]

/-- A piece alone has its tokens. -/
theorem ReadsAs.tokens?_eq {cs : List Char} {ts : List Token} (h : ReadsAs cs ts) : tokens? cs = some ts :=
  h.before.tokens?_eq

/-- A text with tokens has them in front of anything that a word cannot go on with. -/
theorem readsBefore_of_tokens? {cs : List Char} {ts : List Token} (h : tokens? cs = some ts) : ReadsBefore cs ts := by
  intro rest hrest
  fun_induction tokens? cs generalizing ts with
  | case1 =>
    cases h
    exact Option.map_id'.symm
  | case2 c cs hspace ih =>
    rw [List.cons_append, tokens?_cons_of_isSpace hspace]
    exact ih h
  | case3 c cs hspace t more hnext ih =>
    obtain ⟨us, hus, rfl⟩ := Option.map_eq_some_iff.1 h
    rw [List.cons_append, tokens?_cons (by simpa using hspace) (nextToken?_append hnext hrest), ih hus, Option.map_map]
    rfl
  | case4 => cases h

/-- A word reads as itself. -/
theorem readsBefore_word {w : List Char} (hw : IsWord w) : ReadsBefore w [.cell (.word (String.ofList w))] := by
  obtain ⟨hne, hall⟩ := hw
  rw [List.all_eq_true] at hall
  obtain ⟨d, ds, rfl⟩ := List.exists_cons_of_ne_nil hne
  have hd : isNameChar d = true := hall d List.mem_cons_self
  have hds : ∀ x ∈ ds, isNameChar x = true := fun x hx => hall x (List.mem_cons_of_mem d hx)
  have hnext : nextToken? d (ds ++ []) = some (.cell (.word (String.ofList (d :: ds))), []) := by
    rw [nextToken?, if_pos hd, List.takeWhile_append_of_pos hds, List.dropWhile_append_of_pos hds]
    simp
  rw [List.append_nil] at hnext
  refine readsBefore_of_tokens? ?_
  rw [tokens?_cons (not_isSpace_of_isNameChar hd) hnext, tokens?]
  rfl

/-- A word reads as itself in front of a character that cannot go on with it. -/
theorem readsAs_word {w : List Char} (hw : IsWord w) {c : Char} (hc : isNameChar c = false) (hquote : c ≠ '"') :
    ReadsAs (w ++ [c]) (.cell (.word (String.ofList w)) :: markTokens c) :=
  (readsBefore_word hw).append_mark hc hquote

theorem rawLiteral_append (text rest : List Char) :
    rawLiteral text ++ rest = 'R' :: '"' :: (rawDelimiter text ++ '(' :: text ++ rawEnding (rawDelimiter text) ++ rest) := by
  simp [rawLiteral]

/-- A raw literal reads as its text. -/
theorem readsAs_rawLiteral (text : List Char) : ReadsAs (rawLiteral text) [.cell (.text (String.ofList text))] := by
  intro rest
  have hraw := readRaw?_rawLiteral text rest
  have hnext : nextToken? 'R' ('"' :: (rawDelimiter text ++ '(' :: text ++ rawEnding (rawDelimiter text) ++ rest)) =
      some (.cell (.text (String.ofList text)), rest) := by
    have hR : isNameChar 'R' = true := by decide
    have hq : isNameChar '"' = false := by decide
    rw [nextToken?, if_pos hR, List.takeWhile_cons_of_neg (by simp [hq]), List.dropWhile_cons_of_neg (by simp [hq])]
    simp only [hraw, Option.map_some]
  rw [rawLiteral_append, tokens?_cons (by decide) hnext]
  rfl

end CSource

end DeviceCatalog

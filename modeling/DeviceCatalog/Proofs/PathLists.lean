import DeviceCatalog.Catalog
import DeviceCatalog.Proofs.Pieces
import DeviceCatalog.Proofs.Trimming

/-!
# Lists of paths

The paths of a list stand between commas, with blanks around each of them as one likes and blank items in between, and the whole list may
stand between brackets with blanks around them. Splitting such a list gives its paths (`splitPaths_reads_written_lists`). The blanks around
the text go before it is cut, so cutting it and trimming the pieces must not notice them (`map_trimList_pieces_trimList`); and what stands
first or last in a text without brackets belongs to its first or last path (`exists_path_of_starts`, `exists_path_of_ends`).
-/

namespace DeviceCatalog

/-! ## Trimming and cutting -/

namespace Text

/-- Blanks around a text do not matter for trimming it. -/
theorem trimList_between {before after : List Char} (hbefore : ∀ c ∈ before, isBlank c = true) (hafter : ∀ c ∈ after, isBlank c = true)
    (cs : List Char) : trimList (before ++ cs ++ after) = trimList cs := by
  obtain ⟨first, last, hcs, hfirst, hlast, hends⟩ := trimsTo_trimList cs
  have hall : before ++ cs ++ after = (before ++ first) ++ trimList cs ++ (last ++ after) := by
    conv_lhs => rw [hcs]
    simp only [List.append_assoc]
  exact TrimsTo.trimList_eq ⟨before ++ first, last ++ after, hall, List.forall_mem_append.2 ⟨hbefore, hfirst⟩,
    List.forall_mem_append.2 ⟨hlast, hafter⟩, hends⟩

theorem trimList_trimList (cs : List Char) : trimList (trimList cs) = trimList cs := by
  obtain ⟨-, -, -, -, -, hends⟩ := trimsTo_trimList cs
  exact TrimsTo.trimList_eq ⟨[], [], by simp, by simp, by simp, hends⟩

theorem trimList_reverse (cs : List Char) : trimList cs.reverse = (trimList cs).reverse := by
  obtain ⟨before, after, hcs, hbefore, hafter, hfirst, hlast⟩ := trimsTo_trimList cs
  refine TrimsTo.trimList_eq ⟨after.reverse, before.reverse, ?_, by simpa using hafter, by simpa using hbefore, ?_, ?_⟩
  · conv_lhs => rw [hcs]
    simp only [List.reverse_append, List.append_assoc]
  · rwa [List.head?_reverse]
  · rwa [List.getLast?_reverse]

/-- A text that starts with a character that is not blank starts with it when it is trimmed. -/
theorem head?_trimList {c : Char} (hc : isBlank c = false) (cs : List Char) : (trimList (c :: cs)).head? = some c := by
  obtain ⟨before, after, hcs, hbefore, hafter, -⟩ := trimsTo_trimList (c :: cs)
  have hnot : ∀ {ds : List Char}, (∀ d ∈ ds, isBlank d = true) → c ∉ ds := fun hds hmem => by simp [hds c hmem] at hc
  cases before with
  | cons b before =>
    obtain ⟨rfl, -⟩ := List.cons.inj hcs
    exact absurd List.mem_cons_self (hnot hbefore)
  | nil =>
    cases htrimmed : trimList (c :: cs) with
    | nil =>
      rw [htrimmed, List.nil_append, List.nil_append] at hcs
      exact absurd (hcs ▸ List.mem_cons_self) (hnot hafter)
    | cons d ds =>
      rw [htrimmed] at hcs
      exact congrArg some (List.cons.inj hcs).1.symm

/-- A last character that is not blank stays the last one. -/
theorem getLast?_trimList {c : Char} (hc : isBlank c = false) (cs : List Char) : (trimList (cs ++ [c])).getLast? = some c := by
  rw [← List.head?_reverse, ← trimList_reverse, List.reverse_append]
  exact head?_trimList hc cs.reverse

section Ends

variable {sep : Char}

/-- What stands in front of a text stands in front of its first piece. -/
theorem exists_pieces_append_left {front : List Char} (h : sep ∉ front) (cs : List Char) :
    ∃ p ps, pieces sep cs = p :: ps ∧ pieces sep (front ++ cs) = (front ++ p) :: ps := by
  obtain ⟨p, ps, hcs⟩ := exists_pieces_eq sep cs
  refine ⟨p, ps, hcs, ?_⟩
  induction front with
  | nil => exact hcs
  | cons c front ih =>
    rw [List.mem_cons, not_or] at h
    exact pieces_cons_of_ne (fun hsep => h.1 hsep.symm) (ih h.2)

/-- What stands behind a text stands behind its last piece. -/
theorem exists_pieces_append_right {back : List Char} (h : sep ∉ back) (cs : List Char) :
    ∃ ps p, pieces sep cs = ps ++ [p] ∧ pieces sep (cs ++ back) = ps ++ [p ++ back] := by
  induction cs with
  | nil => exact ⟨[], [], rfl, pieces_of_not_mem h⟩
  | cons c cs ih =>
    obtain ⟨ps, p, hcs, hback⟩ := ih
    by_cases hc : c = sep
    · refine ⟨[] :: ps, p, ?_, ?_⟩
      · rw [hc, pieces_cons_self, hcs, List.cons_append]
      · rw [hc, List.cons_append, pieces_cons_self, hback, List.cons_append]
    · cases ps with
      | nil => exact ⟨[], c :: p, pieces_cons_of_ne hc hcs, pieces_cons_of_ne hc hback⟩
      | cons q ps => exact ⟨(c :: q) :: ps, p, pieces_cons_of_ne hc hcs, pieces_cons_of_ne hc hback⟩

/-- Where the separator is not blank, the trimmed pieces of a text are those of the trimmed text. -/
theorem map_trimList_pieces_trimList (hsep : isBlank sep = false) (cs : List Char) :
    (pieces sep (trimList cs)).map trimList = (pieces sep cs).map trimList := by
  obtain ⟨before, after, hcs, hbefore, hafter, -⟩ := trimsTo_trimList cs
  have hnot : ∀ {ds : List Char}, (∀ d ∈ ds, isBlank d = true) → sep ∉ ds := fun hds hmem => by simp [hds sep hmem] at hsep
  obtain ⟨p, ps, htrimmed, hfront⟩ := exists_pieces_append_left (hnot hbefore) (trimList cs)
  obtain ⟨qs, q, hback, hwhole⟩ := exists_pieces_append_right (hnot hafter) (before ++ trimList cs)
  have hfirst : trimList (before ++ p) = trimList p := by simpa using trimList_between hbefore (List.forall_mem_nil _) p
  have hlast : trimList (q ++ after) = trimList q := by simpa using trimList_between (List.forall_mem_nil _) hafter q
  calc (pieces sep (trimList cs)).map trimList
    _ = (pieces sep (before ++ trimList cs)).map trimList := by rw [htrimmed, hfront, List.map_cons, List.map_cons, hfirst]
    _ = (pieces sep (before ++ trimList cs ++ after)).map trimList := by
      rw [hback, hwhole, List.map_append, List.map_append, List.map_singleton, List.map_singleton, hlast]
    _ = (pieces sep cs).map trimList := by rw [← hcs]

end Ends

end Text

/-! ## Written lists -/

namespace Catalog

open Text

/-- A path that can stand in a list: it is not empty, no blanks are around it, and no comma is in it. -/
structure Listable (path : Path) : Prop where
  ne_nil : path.text.toList ≠ []
  trimmed : trimList path.text.toList = path.text.toList
  comma : ',' ∉ path.text.toList

instance (path : Path) : Decidable (Listable path) :=
  decidable_of_iff (path.text.toList ≠ [] ∧ trimList path.text.toList = path.text.toList ∧ ',' ∉ path.text.toList)
    ⟨fun ⟨hne, htrimmed, hcomma⟩ => ⟨hne, htrimmed, hcomma⟩, fun h => ⟨h.ne_nil, h.trimmed, h.comma⟩⟩

/-- An item of a list as it is written: a path with blanks around it, or nothing but blanks. -/
structure ListItem where
  before : List Char
  path? : Option Path
  after : List Char
  blank : ∀ c ∈ before ++ after, isBlank c = true
  listable : ∀ path ∈ path?, Listable path

namespace ListItem

/-- The path of an item as a text, which is empty if there is none. -/
def named (item : ListItem) : List Char :=
  item.path?.elim [] fun path => path.text.toList

/-- The text of an item. -/
def text (item : ListItem) : List Char :=
  item.before ++ item.named ++ item.after

/-- An item without the blanks around it is what it names. -/
theorem trimList_text (item : ListItem) : trimList item.text = item.named := by
  obtain ⟨hbefore, hafter⟩ := List.forall_mem_append.1 item.blank
  rw [text, trimList_between hbefore hafter, named]
  cases hpath : item.path? with
  | none => rfl
  | some path => exact (item.listable path hpath).trimmed

theorem comma_notMem_text (item : ListItem) : ',' ∉ item.text := by
  obtain ⟨hbefore, hafter⟩ := List.forall_mem_append.1 item.blank
  have hcomma : isBlank ',' ≠ true := by decide
  have hnamed : ',' ∉ item.named := by
    rw [named]
    cases hpath : item.path? with
    | none => exact List.not_mem_nil
    | some path => exact (item.listable path hpath).comma
  simp only [text, List.mem_append, not_or]
  exact ⟨⟨fun h => hcomma (hbefore _ h), hnamed⟩, fun h => hcomma (hafter _ h)⟩

/-- An item whose text is something else than blanks has a path. -/
theorem exists_path {item : ListItem} (h : trimList item.text ≠ []) :
    ∃ path, item.path? = some path ∧ path.text.toList = trimList item.text := by
  rw [trimList_text, named] at *
  cases hpath : item.path? with
  | none =>
    rw [hpath] at h
    exact absurd rfl h
  | some path => exact ⟨path, rfl, rfl⟩

end ListItem

/-- A list as it is written, without brackets. -/
def writtenList (items : List ListItem) : List Char :=
  List.intercalate [','] (items.map ListItem.text)

/-- A list that is written is cut into its items again. -/
theorem pieces_writtenList {items : List ListItem} (h : items ≠ []) : pieces ',' (writtenList items) = items.map ListItem.text := by
  refine pieces_eq_iff.2 ⟨by simpa using h, ?_, rfl⟩
  intro p hp
  obtain ⟨item, -, rfl⟩ := List.mem_map.1 hp
  exact item.comma_notMem_text

/-- The text without an opening bracket in front. -/
def withoutOpening : List Char → List Char
  | '[' :: cs => cs
  | cs => cs

/-- The text without a closing bracket behind. -/
def withoutClosing (cs : List Char) : List Char :=
  if cs.getLast? = some ']' then cs.dropLast else cs

/-- The paths between the commas of a text. -/
def pathsBetween (cs : List Char) : List Path :=
  (((pieces ',' cs).map trimList).filter (· ≠ [])).map fun p => ⟨String.ofList p⟩

/-- The paths of a list are those between its brackets. -/
theorem splitPaths_eq (list : String) : splitPaths list = pathsBetween (withoutClosing (withoutOpening (trimList list.toList))) := rfl

theorem withoutOpening_of_head? {cs : List Char} (h : cs.head? ≠ some '[') : withoutOpening cs = cs := by
  unfold withoutOpening
  split
  · exact absurd rfl h
  · rfl

theorem withoutClosing_append (cs : List Char) : withoutClosing (cs ++ [']']) = cs := by
  rw [withoutClosing, if_pos (by simp), List.dropLast_concat]

theorem withoutClosing_of_getLast? {cs : List Char} (h : cs.getLast? ≠ some ']') : withoutClosing cs = cs :=
  if_neg h

/-- Blanks around a list do not matter. -/
theorem pathsBetween_trimList (cs : List Char) : pathsBetween (trimList cs) = pathsBetween cs := by
  rw [pathsBetween, pathsBetween, map_trimList_pieces_trimList (by decide)]

/-- The paths of a written list are those that its items name. -/
theorem pathsBetween_writtenList (items : List ListItem) : pathsBetween (writtenList items) = items.filterMap ListItem.path? := by
  by_cases hnil : items = []
  · rw [hnil]
    rfl
  · have hnames : (items.map ListItem.text).map trimList = items.map ListItem.named := by
      rw [List.map_map]
      exact List.map_congr_left fun item _ => item.trimList_text
    rw [pathsBetween, pieces_writtenList hnil, hnames]
    clear hnil hnames
    induction items with
    | nil => rfl
    | cons item items ih =>
      rw [List.map_cons]
      cases hpath : item.path? with
      | none =>
        have hempty : item.named = [] := by rw [ListItem.named, hpath]; rfl
        rw [List.filter_cons_of_neg (by simp [hempty]), ih, List.filterMap_cons_none hpath]
      | some path =>
        have hnamed : item.named = path.text.toList := by rw [ListItem.named, hpath]; rfl
        have hne := (item.listable path hpath).ne_nil
        rw [List.filter_cons_of_pos (by simpa [hnamed] using hne), List.map_cons, ih, List.filterMap_cons_some hpath, hnamed, String.ofList_toList]

/-- What a list without brackets starts with belongs to its first path, unless it is a blank or a comma. -/
theorem exists_path_of_starts {items : List ListItem} {c : Char} (hblank : isBlank c = false) (hcomma : c ≠ ',')
    (h : (trimList (writtenList items)).head? = some c) :
    ∃ path, (items.filterMap ListItem.path?).head? = some path ∧ path.text.toList.head? = some c := by
  obtain ⟨r, hr⟩ := List.head?_eq_some_iff.1 h
  obtain ⟨before, after, hwritten, hbefore, -⟩ := trimsTo_trimList (writtenList items)
  rw [hr] at hwritten
  have hfront : ',' ∉ before ++ [c] := by
    rw [List.mem_append, List.mem_singleton, not_or]
    exact ⟨fun hmem => absurd (hbefore _ hmem) (by decide), Ne.symm hcomma⟩
  obtain ⟨p, ps, -, hpieces⟩ := exists_pieces_append_left hfront (r ++ after)
  have hsplit : writtenList items = before ++ [c] ++ (r ++ after) := by simpa using hwritten
  cases items with
  | nil => exact absurd (congrArg List.length hsplit) (by simp [writtenList])
  | cons item items =>
    rw [← hsplit, pieces_writtenList (List.cons_ne_nil _ _), List.map_cons] at hpieces
    have hstarts : (trimList item.text).head? = some c := by
      have htrimmed := trimList_between hbefore (List.forall_mem_nil _) (c :: p)
      rw [List.append_nil] at htrimmed
      rw [(List.cons.inj hpieces).1, List.append_assoc, List.singleton_append, htrimmed, head?_trimList hblank]
    obtain ⟨path, hpath, htext⟩ := item.exists_path fun hnil => by simp [hnil] at hstarts
    exact ⟨path, by rw [List.filterMap_cons_some hpath, List.head?_cons], htext ▸ hstarts⟩

/-- What a list without brackets ends with belongs to its last path, unless it is a blank or a comma. -/
theorem exists_path_of_ends {items : List ListItem} {c : Char} (hblank : isBlank c = false) (hcomma : c ≠ ',')
    (h : (trimList (writtenList items)).getLast? = some c) :
    ∃ path, (items.filterMap ListItem.path?).getLast? = some path ∧ path.text.toList.getLast? = some c := by
  obtain ⟨r, hr⟩ := List.getLast?_eq_some_iff.1 h
  obtain ⟨before, after, hwritten, -, hafter, -⟩ := trimsTo_trimList (writtenList items)
  rw [hr] at hwritten
  have hback : ',' ∉ [c] ++ after := by
    rw [List.mem_append, List.mem_singleton, not_or]
    exact ⟨Ne.symm hcomma, fun hmem => absurd (hafter _ hmem) (by decide)⟩
  obtain ⟨ps, p, -, hpieces⟩ := exists_pieces_append_right hback (before ++ r)
  have hsplit : writtenList items = before ++ r ++ ([c] ++ after) := by simpa using hwritten
  rcases List.eq_nil_or_concat' items with rfl | ⟨items, item, rfl⟩
  · exact absurd (congrArg List.length hsplit) (by simp [writtenList])
  · rw [← hsplit, pieces_writtenList (by simp), List.map_append, List.map_singleton] at hpieces
    have hends : (trimList item.text).getLast? = some c := by
      have htrimmed := trimList_between (List.forall_mem_nil _) hafter (p ++ [c])
      rw [List.nil_append] at htrimmed
      rw [List.singleton_inj.1 (List.append_inj_right' hpieces rfl), ← List.append_assoc, htrimmed, getLast?_trimList hblank]
    obtain ⟨path, hpath, htext⟩ := item.exists_path fun hnil => by simp [hnil] at hends
    exact ⟨path, by simp [List.filterMap_append, hpath], htext ▸ hends⟩

/-! ## Splitting -/

/-- Split between brackets, a list gives its paths, whatever they start and end with. -/
theorem splitPaths_bracketed (items : List ListItem) {before after : List Char} (hbefore : ∀ c ∈ before, isBlank c = true)
    (hafter : ∀ c ∈ after, isBlank c = true) :
    splitPaths (String.ofList (before ++ ('[' :: writtenList items ++ [']']) ++ after)) = items.filterMap ListItem.path? := by
  have htrimmed : trimList (before ++ ('[' :: writtenList items ++ [']']) ++ after) = '[' :: writtenList items ++ [']'] := by
    refine TrimsTo.trimList_eq ⟨before, after, rfl, hbefore, hafter, ?_, ?_⟩
    · intro c hc
      obtain rfl : '[' = c := Option.some.inj hc
      decide
    · intro c hc
      rw [List.getLast?_append, List.getLast?_singleton] at hc
      obtain rfl : ']' = c := Option.some.inj hc
      decide
  have hopened : withoutOpening ('[' :: writtenList items ++ [']']) = writtenList items ++ [']'] := rfl
  rw [splitPaths_eq, String.toList_ofList, htrimmed, hopened, withoutClosing_append, pathsBetween_writtenList]

/-- Split without brackets, a list gives its paths if the first one does not start with an opening bracket and the last one does not end
with a closing one. -/
theorem splitPaths_unbracketed {items : List ListItem}
    (hfirst : ∀ path ∈ (items.filterMap ListItem.path?).head?, path.text.toList.head? ≠ some '[')
    (hlast : ∀ path ∈ (items.filterMap ListItem.path?).getLast?, path.text.toList.getLast? ≠ some ']') :
    splitPaths (String.ofList (writtenList items)) = items.filterMap ListItem.path? := by
  have hstart : (trimList (writtenList items)).head? ≠ some '[' := by
    intro hstarts
    obtain ⟨path, hpath, hbracket⟩ := exists_path_of_starts (by decide) (by decide) hstarts
    exact hfirst path hpath hbracket
  have hend : (trimList (writtenList items)).getLast? ≠ some ']' := by
    intro hends
    obtain ⟨path, hpath, hbracket⟩ := exists_path_of_ends (by decide) (by decide) hends
    exact hlast path hpath hbracket
  rw [splitPaths_eq, String.toList_ofList, withoutOpening_of_head? hstart, withoutClosing_of_getLast? hend, pathsBetween_trimList,
    pathsBetween_writtenList]

/-- Every path of a list can stand in a list. -/
theorem listable_of_mem_splitPaths {list : String} {path : Path} (h : path ∈ splitPaths list) : Listable path := by
  rw [splitPaths_eq] at h
  obtain ⟨cs, hcs, rfl⟩ := List.mem_map.1 h
  obtain ⟨hmem, hne⟩ := List.mem_filter.1 hcs
  obtain ⟨p, hp, rfl⟩ := List.mem_map.1 hmem
  refine ⟨?_, ?_, ?_⟩
  · simpa using hne
  · rw [String.toList_ofList, trimList_trimList]
  · rw [String.toList_ofList]
    intro hcomma
    obtain ⟨before, after, hsplit, -⟩ := trimsTo_trimList p
    refine not_mem_of_mem_pieces hp ?_
    rw [hsplit]
    simp [hcomma]

/-- Take paths that can stand in a list, and the list of them written in any way: with blanks around each path and with blank items in
between. Between brackets, with blanks around these, splitting gives the paths and nothing else, in their order. Without brackets it gives
them too, if the first path does not start with an opening bracket and the last one does not end with a closing one. And whatever text is
split, only paths come out that can stand in a list. -/
theorem splitPaths_reads_written_lists :
    (∀ (paths : List Path) (items : List ListItem), items.filterMap ListItem.path? = paths →
      (∀ before after, (∀ c ∈ before, isBlank c = true) → (∀ c ∈ after, isBlank c = true) →
        splitPaths (String.ofList (before ++ ('[' :: writtenList items ++ [']']) ++ after)) = paths) ∧
      ((∀ path ∈ paths.head?, path.text.toList.head? ≠ some '[') → (∀ path ∈ paths.getLast?, path.text.toList.getLast? ≠ some ']') →
        splitPaths (String.ofList (writtenList items)) = paths)) ∧
    ∀ list, ∀ path ∈ splitPaths list, Listable path := by
  refine ⟨?_, fun list path => listable_of_mem_splitPaths⟩
  rintro paths items rfl
  exact ⟨fun before after => splitPaths_bracketed items, splitPaths_unbracketed⟩

/-- Paths with brackets in them, one of which is nothing but a bracket: between brackets and among blanks both come back whole, and so do two
without brackets of which one ends with an opening bracket; and of a text with brackets where none belong a path is left that can stand in a
list. -/
theorem splitPaths_reads_written_lists_inner_brackets :
    splitPaths "\u3000[ [a].json\t,\u0085,]\u00a0]\n" = [⟨"[a].json"⟩, ⟨"]"⟩] ∧
    splitPaths " ,a.json, b[" = [⟨"a.json"⟩, ⟨"b["⟩] ∧
    ⟨"["⟩ ∈ splitPaths " [[ , ]" ∧ Listable ⟨"["⟩ := by
  obtain ⟨hwritten, hall⟩ := splitPaths_reads_written_lists
  obtain ⟨hbrackets, -⟩ := hwritten [⟨"[a].json"⟩, ⟨"]"⟩]
    [⟨[' '], some ⟨"[a].json"⟩, ['\t'], List.all_eq_true.1 rfl, by decide⟩, ⟨['\u0085'], none, [], List.all_eq_true.1 rfl, by decide⟩,
      ⟨[], some ⟨"]"⟩, ['\u00a0'], List.all_eq_true.1 rfl, by decide⟩] rfl
  obtain ⟨-, hplain⟩ := hwritten [⟨"a.json"⟩, ⟨"b["⟩]
    [⟨[' '], none, [], List.all_eq_true.1 rfl, by decide⟩, ⟨[], some ⟨"a.json"⟩, [], List.all_eq_true.1 rfl, by decide⟩,
      ⟨[' '], some ⟨"b["⟩, [], List.all_eq_true.1 rfl, by decide⟩] rfl
  have hbracket : (⟨"["⟩ : Path) ∈ splitPaths " [[ , ]" := by decide
  exact ⟨hbrackets ['\u3000'] ['\n'] (List.all_eq_true.1 rfl) (List.all_eq_true.1 rfl), hplain (by decide) (by decide), hbracket,
    hall _ _ hbracket⟩

end Catalog

end DeviceCatalog

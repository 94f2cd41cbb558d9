import DeviceCatalog.CSource.Lines

/-!
# Lines of emitted source

Whole lines put one behind the other are cut into their lines one after the other, and so are the items of a file, each of which consists
of whole lines. What a compiler makes a line of holds nothing that ends one.
-/

namespace DeviceCatalog.CSource

theorem any_endsLine_iff {l : List Char} : l.any endsLine = false ↔ Unbroken l := by
  simp [Unbroken]

instance (l : List Char) : Decidable (Unbroken l) := decidable_of_decidable_of_iff any_endsLine_iff

instance (l : List Char) : Decidable (OneLine l) := inferInstanceAs (Decidable (Unbroken l ∧ continues l = false))

/-- A text is unbroken when both its parts are. -/
theorem unbroken_append_iff {cs ds : List Char} : Unbroken (cs ++ ds) ↔ Unbroken cs ∧ Unbroken ds := List.forall_mem_append

theorem unbroken_toList_append_iff {s t : String} : Unbroken (s ++ t).toList ↔ Unbroken s.toList ∧ Unbroken t.toList := by
  rw [String.toList_append, unbroken_append_iff]

/-- Unbroken parts with an unbroken separator between them are unbroken. -/
theorem unbroken_intercalate {sep : String} (hsep : Unbroken sep.toList) {parts : List String} (h : ∀ s ∈ parts, Unbroken s.toList) :
    Unbroken (String.intercalate sep parts).toList := by
  induction parts with
  | nil => exact List.forall_mem_nil _
  | cons s parts ih =>
    obtain ⟨hs, hparts⟩ := List.forall_mem_cons.1 h
    cases parts with
    | nil => rwa [String.intercalate_singleton]
    | cons t parts =>
      rw [String.intercalate_cons_cons, unbroken_toList_append_iff, unbroken_toList_append_iff]
      exact ⟨⟨hs, hsep⟩, ih hparts⟩

/-! ## Lines -/

/-- A character that ends no line begins the first line of what stands behind it. -/
theorem linesBehind_cons_of_not_endsLine {c : Char} (hc : endsLine c = false) (afterReturn : Bool) {cs l : List Char} {ls : List (List Char)}
    (h : lines cs = l :: ls) : linesBehind afterReturn (c :: cs) = (c :: l) :: ls := by
  have hfeed : (c == '\n') = false := (Bool.or_eq_false_iff.1 hc).1
  unfold lines at h
  simp [linesBehind, hfeed, hc, h]

theorem lines_ne_nil {cs : List Char} (h : cs ≠ []) : lines cs ≠ [] := by
  obtain ⟨c, cs, rfl⟩ := List.exists_cons_of_ne_nil h
  unfold lines linesBehind
  rw [Bool.false_and, if_neg Bool.false_ne_true]
  split
  · exact List.cons_ne_nil _ _
  · split <;> exact List.cons_ne_nil _ _

/-- What comes up to a line feed is a line if nothing in it ends a line. -/
theorem lines_append_newline {l : List Char} (h : Unbroken l) (cs : List Char) :
    lines (l ++ '\n' :: cs) = l :: lines cs := by
  induction l with
  | nil => rfl
  | cons c l ih =>
    obtain ⟨hc, hl⟩ := List.forall_mem_cons.1 h
    exact linesBehind_cons_of_not_endsLine hc false (ih hl)

/-- Nothing in a line ends a line. -/
theorem unbroken_of_mem_linesBehind {afterReturn : Bool} {cs l : List Char} (h : l ∈ linesBehind afterReturn cs) : Unbroken l := by
  induction cs generalizing afterReturn l with
  | nil => cases h
  | cons c cs ih =>
    rw [linesBehind] at h
    split at h
    · exact ih h
    · split at h
      · rcases List.mem_cons.1 h with rfl | h
        · exact List.forall_mem_nil _
        · exact ih h
      · rename_i hc
        have hc := Bool.eq_false_iff.2 hc
        split at h
        · cases List.mem_singleton.1 h
          exact List.forall_mem_singleton.2 hc
        · rename_i m ms hlines
          rcases List.mem_cons.1 h with rfl | h
          · exact List.forall_mem_cons.2 ⟨hc, ih (hlines ▸ List.mem_cons_self)⟩
          · exact ih (hlines ▸ List.mem_cons_of_mem m h)

theorem complete_append {cs ds : List Char} (hc : Complete cs) (hd : Complete ds) : Complete (cs ++ ds) := by
  rcases hd with rfl | ⟨before, rfl⟩
  · rwa [List.append_nil]
  · exact Or.inr ⟨cs ++ before, (List.append_assoc _ _ _).symm⟩

/-- Behind a line feed the lines start anew. -/
theorem linesBehind_append_newline (afterReturn : Bool) (before cs : List Char) :
    linesBehind afterReturn ((before ++ ['\n']) ++ cs) = linesBehind afterReturn (before ++ ['\n']) ++ lines cs := by
  induction before generalizing afterReturn with
  | nil => cases afterReturn <;> rfl
  | cons c before ih =>
    rw [List.cons_append, List.cons_append, linesBehind, linesBehind]
    split
    · exact ih false
    · split
      · rw [ih, List.cons_append]
      · have hne : before ++ ['\n'] ≠ [] := List.append_ne_nil_of_right_ne_nil before (List.cons_ne_nil _ _)
        obtain ⟨l, ls, hlines⟩ := List.exists_cons_of_ne_nil (lines_ne_nil hne)
        unfold lines at hlines
        rw [ih, hlines]
        rfl

/-- Behind whole lines the lines start anew. -/
theorem lines_append {cs : List Char} (h : Complete cs) (ds : List Char) : lines (cs ++ ds) = lines cs ++ lines ds := by
  rcases h with rfl | ⟨before, rfl⟩
  · rfl
  · exact linesBehind_append_newline false before ds

/-! ## Splicing -/

/-- A line that does not go on is left as it is. -/
theorem splice_cons_of_not_continues {l : List Char} (h : continues l = false) (ls : List (List Char)) : splice (l :: ls) = l :: splice ls := by
  rw [splice, if_neg (by simp [h])]

theorem splice_ne_nil {ls : List (List Char)} (h : ls ≠ []) : splice ls ≠ [] := by
  obtain ⟨l, ls, rfl⟩ := List.exists_cons_of_ne_nil h
  unfold splice
  split
  · split <;> exact List.cons_ne_nil _ _
  · exact List.cons_ne_nil _ _

/-- Behind a line that does not go on the splicing starts anew. -/
theorem splice_append {l : List Char} (h : continues l = false) (before after : List (List Char)) :
    splice ((before ++ [l]) ++ after) = splice (before ++ [l]) ++ splice after := by
  induction before with
  | nil => rw [List.nil_append, List.singleton_append, splice_cons_of_not_continues h, splice_cons_of_not_continues h]; rfl
  | cons m before ih =>
    rw [List.cons_append, List.cons_append, splice, splice, ih]
    obtain ⟨s, ss, hs⟩ := List.exists_cons_of_ne_nil (splice_ne_nil (List.append_ne_nil_of_right_ne_nil before (List.cons_ne_nil l [])))
    rw [hs]
    split <;> rfl

/-- A line that goes on takes the next one with it. -/
theorem length_splice_of_continues {l : List Char} (h : continues l = true) {ls : List (List Char)} (hls : ls ≠ []) :
    (splice (l :: ls)).length = (splice ls).length := by
  obtain ⟨m, ms, hm⟩ := List.exists_cons_of_ne_nil (splice_ne_nil hls)
  rw [splice, if_pos h, hm]
  rfl

/-- Splicing breaks no line. -/
theorem unbroken_of_mem_splice {ls : List (List Char)} (h : ∀ l ∈ ls, Unbroken l) : ∀ l ∈ splice ls, Unbroken l := by
  induction ls with
  | nil => exact List.forall_mem_nil _
  | cons l ls ih =>
    obtain ⟨hl, hls⟩ := List.forall_mem_cons.1 h
    have hrest := ih hls
    rw [splice]
    split
    · split
      · exact List.forall_mem_singleton.2 hl
      · rename_i m ms hm
        rw [hm] at hrest
        obtain ⟨hm, hms⟩ := List.forall_mem_cons.1 hrest
        have hdrop : Unbroken l.dropLast := fun c hc => hl c ((List.dropLast_sublist l).subset hc)
        exact List.forall_mem_cons.2 ⟨unbroken_append_iff.2 ⟨hdrop, hm⟩, hms⟩
    · exact List.forall_mem_cons.2 ⟨hl, hrest⟩

/-- Nothing in a source line ends a line. -/
theorem unbroken_of_mem_sourceLines {s : String} {l : List Char} (h : l ∈ sourceLines s) : Unbroken l :=
  unbroken_of_mem_splice (fun _ => unbroken_of_mem_linesBehind) l h

/-! ## Items -/

theorem fileText_cons (item : Item) (items : List Item) : fileText (item :: items) = item.text ++ fileText items := by
  rw [fileText, List.map_cons, String.join_cons]
  rfl

/-- Items one behind the other have their texts one behind the other. -/
theorem fileText_append (front behind : List Item) : fileText (front ++ behind) = fileText front ++ fileText behind := by
  rw [fileText, List.map_append, String.join_append]
  rfl

theorem complete_line (s : String) : Complete (line s).toList :=
  Or.inr ⟨s.toList, String.toList_append⟩

theorem complete_join_lines (ls : List String) : Complete (String.join (ls.map line)).toList := by
  induction ls with
  | nil => exact Or.inl rfl
  | cons l ls ih =>
    rw [List.map_cons, String.join_cons, String.toList_append]
    exact complete_append (complete_line l) ih

/-- The text of an item consists of whole lines. -/
theorem complete_text (item : Item) : Complete item.text.toList := by
  cases item with
  | struct | function => exact complete_join_lines _
  | _ => exact complete_line _

/-- The text of a file consists of whole lines. -/
theorem complete_fileText (items : List Item) : Complete (fileText items).toList := by
  induction items with
  | nil => exact Or.inl rfl
  | cons item items ih =>
    rw [fileText_cons, String.toList_append]
    exact complete_append (complete_text item) ih

/-- The lines of items one behind the other add up. -/
theorem lineCount_append (front behind : List Item) : lineCount (front ++ behind) = lineCount front + lineCount behind := by
  rw [lineCount, fileText_append, String.toList_append, lines_append (complete_fileText front), List.length_append]
  rfl

theorem lineCount_cons (item : Item) (items : List Item) : lineCount (item :: items) = lineCount [item] + lineCount items :=
  lineCount_append [item] items

/-- The declaration of a function whose parameters are all on one line. -/
theorem lineCount_prototype {s : Signature} {ps : List Param} (hqualifiers : s.qualifiers = []) (hparams : s.params = [ps])
    (hresult : Unbroken s.result.text.toList) (hname : Unbroken s.name.toList) (hps : ∀ p ∈ ps, Unbroken p.text.toList) :
    lineCount [.prototype s] = 1 := by
  have hlist : Unbroken (String.intercalate ", " (ps.map Param.text)).toList := by
    refine unbroken_intercalate (by decide) fun t ht => ?_
    obtain ⟨p, hp, rfl⟩ := List.mem_map.1 ht
    exact hps p hp
  have hunbroken : Unbroken (s.text ++ ";").toList := by
    rw [Signature.text, hqualifiers, hparams, List.map_singleton, String.intercalate_singleton]
    simp only [unbroken_toList_append_iff]
    exact ⟨⟨⟨⟨⟨⟨⟨by decide, hresult⟩, by decide⟩, hname⟩, by decide⟩, hlist⟩, by decide⟩, by decide⟩
  have htext : (fileText [.prototype s]).toList = (s.text ++ ";").toList ++ ['\n'] := by
    rw [fileText_cons, Item.text, line, String.toList_append, String.toList_append]
    exact List.append_nil _
  rw [lineCount, htext, lines_append_newline hunbroken]
  rfl

end DeviceCatalog.CSource

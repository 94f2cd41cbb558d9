import DeviceCatalog.Proofs.DecoderBounds
import DeviceCatalog.Proofs.Identifiers
import DeviceCatalog.Proofs.SourceLines
import Mathlib.Algebra.Ring.Nat

/-!
# Comments as source lines

The comments of the script bindings hold type names and the module name as they are. Such a comment is one source line of its own when
nothing in that text ends a line and no backslash stands at the end of the comment, and only then: what stands behind the end of a line is
read as code, and behind a backslash the line that follows is read as part of the comment.
-/

namespace DeviceCatalog

namespace CSource

/-! ## Texts that are one line -/

/-- A text with something behind it is a line when it is unbroken and what stands behind it is a line. -/
theorem oneLine_append_iff {cs ds : List Char} (h : ds ≠ []) : OneLine (cs ++ ds) ↔ Unbroken cs ∧ OneLine ds := by
  have hlast : continues (cs ++ ds) = continues ds := by
    unfold continues
    rw [List.getLast?_append_of_ne_nil cs h]
  unfold OneLine
  rw [hlast, unbroken_append_iff, and_assoc]

/-- Behind a line without its end there can be any text that is one line. -/
theorem oneLine_append_left_iff {cs : List Char} (h : OneLine cs) (ds : List Char) : OneLine (cs ++ ds) ↔ OneLine ds := by
  by_cases hds : ds = []
  · subst hds
    rw [List.append_nil]
    exact iff_of_true h (by decide)
  · rw [oneLine_append_iff hds, and_iff_right h.1]

/-! ## Comments among items -/

/-- The line that a comment is meant to be. -/
def commentLine (text : String) : List Char := ("// " ++ text).toList

/-- Wherever the comment stands among the items, it is a source line of its own. -/
def AloneOnLine (items : List Item) (text : String) : Prop :=
  ∀ front behind, items = front ++ .comment text :: behind →
    sourceLines (fileText items) = sourceLines (fileText front) ++ commentLine text :: sourceLines (fileText behind)

/-- Every comment stands behind a blank line and is followed by something. -/
def commentsApart (afterBlank : Bool) : List Item → Bool
  | [] => true
  | .comment _ :: rest => afterBlank && !rest.isEmpty && commentsApart false rest
  | .blank :: rest => commentsApart true rest
  | _ :: rest => commentsApart false rest

/-- Where comments stand apart, each has a blank line or nothing in front of it and something behind it. -/
theorem exists_of_commentsApart {afterBlank : Bool} {front behind : List Item} {text : String}
    (h : commentsApart afterBlank (front ++ .comment text :: behind) = true) :
    (front = [] ∧ afterBlank = true ∨ ∃ before, front = before ++ [.blank]) ∧ behind ≠ [] := by
  induction front generalizing afterBlank with
  | nil =>
    rw [List.nil_append, commentsApart, Bool.and_eq_true, Bool.and_eq_true] at h
    refine ⟨Or.inl ⟨rfl, h.1.1⟩, ?_⟩
    rintro rfl
    exact Bool.false_ne_true h.1.2
  | cons item front ih =>
    rw [List.cons_append] at h
    have hstep : ∃ blank, commentsApart blank (front ++ .comment text :: behind) = true ∧ (blank = true → item = .blank) := by
      cases item with
      | blank => exact ⟨true, h, fun _ => rfl⟩
      | comment =>
        rw [commentsApart, Bool.and_eq_true] at h
        exact ⟨false, h.2, fun hblank => absurd hblank Bool.false_ne_true⟩
      | _ => exact ⟨false, h, fun hblank => absurd hblank Bool.false_ne_true⟩
    obtain ⟨blank, hrest, hblank⟩ := hstep
    obtain ⟨⟨rfl, hafter⟩ | ⟨before, rfl⟩, hbehind⟩ := ih hrest
    · exact ⟨Or.inr ⟨[], by rw [hblank hafter, List.nil_append]⟩, hbehind⟩
    · exact ⟨Or.inr ⟨item :: before, rfl⟩, hbehind⟩

/-- Behind a blank line the lines of a source start anew. -/
theorem sourceLines_append_blank (before behind : List Item) :
    sourceLines (fileText (before ++ [.blank] ++ behind)) = sourceLines (fileText (before ++ [.blank])) ++ sourceLines (fileText behind) := by
  have hblank : lines (fileText (before ++ [.blank])).toList = lines (fileText before).toList ++ [[]] := by
    rw [fileText_append, String.toList_append, lines_append (complete_fileText before)]
    rfl
  unfold sourceLines
  rw [fileText_append, String.toList_append, lines_append (complete_fileText _), hblank, splice_append rfl]

theorem toList_line_ne_nil (s : String) : (line s).toList ≠ [] := by
  rw [line, String.toList_append]
  exact List.append_ne_nil_of_right_ne_nil _ (List.cons_ne_nil _ _)

theorem toList_text_ne_nil (item : Item) : item.text.toList ≠ [] := by
  have hjoin : ∀ (l : String) (ls : List String), (String.join ((l :: ls).map line)).toList ≠ [] := by
    intro l ls
    rw [List.map_cons, String.join_cons, String.toList_append]
    exact List.append_ne_nil_of_left_ne_nil (toList_line_ne_nil l) _
  cases item with
  | struct name members => exact hjoin _ _
  | function style s body => cases style <;> exact hjoin _ _
  | _ => exact toList_line_ne_nil _

theorem lines_fileText_ne_nil {items : List Item} (h : items ≠ []) : lines (fileText items).toList ≠ [] := by
  obtain ⟨item, items, rfl⟩ := List.exists_cons_of_ne_nil h
  refine lines_ne_nil ?_
  rw [fileText_cons, String.toList_append]
  exact List.append_ne_nil_of_left_ne_nil (toList_text_ne_nil item) _

/-- A comment is the first line of what it stands in front of. -/
theorem toList_fileText_comment (text : String) (behind : List Item) :
    (fileText (.comment text :: behind)).toList = commentLine text ++ '\n' :: (fileText behind).toList := by
  rw [fileText_cons, Item.text, line, String.toList_append, String.toList_append, List.append_assoc]
  rfl

/-- A comment with something behind it is a source line of its own exactly when its text can be one. -/
theorem sourceLines_comment_iff {text : String} {behind : List Item} (h : behind ≠ []) :
    sourceLines (fileText (.comment text :: behind)) = commentLine text :: sourceLines (fileText behind) ↔ OneLine (commentLine text) := by
  constructor
  · intro hlines
    have hunbroken : Unbroken (commentLine text) := unbroken_of_mem_sourceLines (hlines ▸ List.mem_cons_self)
    refine ⟨hunbroken, Bool.eq_false_iff.2 fun hcontinues => ?_⟩
    -- The next line would be taken into the comment, so there would be one line less.
    have hlength := congrArg List.length hlines
    rw [sourceLines, toList_fileText_comment, lines_append_newline hunbroken, length_splice_of_continues hcontinues (lines_fileText_ne_nil h),
      List.length_cons, sourceLines] at hlength
    exact absurd hlength (Nat.ne_of_lt (Nat.lt_succ_self _))
  · rintro ⟨hunbroken, hlast⟩
    rw [sourceLines, toList_fileText_comment, lines_append_newline hunbroken, splice_cons_of_not_continues hlast]
    rfl

/-- Where comments stand apart, a comment that occurs is a source line of its own exactly when its text can be one. -/
theorem aloneOnLine_iff {items : List Item} {text : String} (happart : commentsApart true items = true) (hmem : .comment text ∈ items) :
    AloneOnLine items text ↔ OneLine (commentLine text) := by
  have hsplit : ∀ front behind, items = front ++ .comment text :: behind →
      (sourceLines (fileText items) = sourceLines (fileText front) ++ commentLine text :: sourceLines (fileText behind) ↔
        OneLine (commentLine text)) := by
    rintro front behind rfl
    obtain ⟨hfront, hbehind⟩ := exists_of_commentsApart happart
    rw [← sourceLines_comment_iff hbehind]
    rcases hfront with ⟨rfl, -⟩ | ⟨before, rfl⟩
    · exact Iff.rfl
    · rw [sourceLines_append_blank, List.append_cancel_left_eq]
  constructor
  · intro halone
    obtain ⟨front, behind, hitems⟩ := List.append_of_mem hmem
    exact (hsplit front behind hitems).1 (halone front behind hitems)
  · exact fun hone front behind hitems => (hsplit front behind hitems).2 hone

/-- A comment at the start of a file, and nowhere else in it. -/
theorem aloneOnLine_head_iff {text : String} {rest : List Item} (hne : rest ≠ []) (hmem : .comment text ∉ rest) :
    AloneOnLine (.comment text :: rest) text ↔ OneLine (commentLine text) := by
  rw [← sourceLines_comment_iff hne]
  constructor
  · exact fun halone => halone [] rest rfl
  · intro hlines front behind hitems
    cases front with
    | nil =>
      obtain rfl : rest = behind := (List.cons.inj hitems).2
      exact hlines
    | cons item front => exact absurd ((List.cons.inj hitems).2 ▸ List.mem_append_right front List.mem_cons_self) hmem

end CSource

namespace Artifact

open CSource

/-! ## The comments of the script bindings -/

/-- The comment of a decoder is a line exactly when the name of the type is one. -/
theorem oneLine_decoderComment (typeName : String) : OneLine (commentLine ("Decoder for " ++ typeName)) ↔ OneLine typeName.toList := by
  have hfixed : OneLine "// Decoder for ".toList := by decide
  have hstart : "// " ++ "Decoder for " = "// Decoder for " := rfl
  rw [commentLine, ← String.append_assoc, hstart, String.toList_append, oneLine_append_left_iff hfixed]

/-- The comment above the symbols is a line exactly when nothing in the name of the module ends one. -/
theorem oneLine_symbolsComment (moduleName : String) :
    OneLine (commentLine ("Symbols of the " ++ moduleName ++ " module")) ↔ Unbroken moduleName.toList := by
  have hfixed : OneLine "// Symbols of the ".toList := by decide
  have hend : OneLine " module".toList := by decide
  have hne : " module".toList ≠ [] := by decide
  have hstart : "// " ++ "Symbols of the " = "// Symbols of the " := rfl
  rw [commentLine, ← String.append_assoc, ← String.append_assoc, hstart, String.toList_append, String.toList_append, List.append_assoc,
    oneLine_append_left_iff hfixed, oneLine_append_iff hne, and_iff_left hend]

/-- Parts that end in a blank line can be passed over. -/
theorem commentsApart_flatMap {α : Type} {f : α → List Item} (hf : ∀ a rest, commentsApart true (f a ++ rest) = commentsApart true rest)
    (as : List α) (rest : List Item) : commentsApart true (as.flatMap f ++ rest) = commentsApart true rest := by
  induction as with
  | nil => rfl
  | cons a as ih => rw [List.flatMap_cons, List.append_assoc, hf, ih]

theorem commentsApart_decoderHeader (b : Bindings) : commentsApart true b.decoderHeader = true := by
  show commentsApart true ((b.decoders.flatMap _ ++ _) ++ _) = true
  rw [List.append_assoc, commentsApart_flatMap fun _ _ => rfl]
  rfl

/-- The comments of a source stand apart. -/
theorem commentsApart_decoderSource (b : Bindings) (headerName pollRecordsName : String) :
    commentsApart true (b.decoderSource headerName pollRecordsName) = true := by
  rw [Bindings.decoderSource, helpers, dictionaryItems]
  simp only [List.append_assoc]
  show commentsApart true (FieldType.all.flatMap _ ++ _) = true
  rw [commentsApart_flatMap fun _ _ => rfl]
  show commentsApart true (StoreKind.all.flatMap _ ++ _) = true
  rw [commentsApart_flatMap fun _ _ => rfl, commentsApart_flatMap fun _ _ => rfl]
  rfl

/-! ## The length of the header -/

/-- Nothing in an identifier ends a line. -/
theorem unbroken_name (s : String) : Unbroken (CSource.name s).toList := by
  intro c hc
  rw [Bool.eq_false_iff]
  intro hends
  have hchar := isNameChar_of_mem_name hc
  rcases Bool.or_eq_true_iff.1 hends with heq | heq
  · rw [eq_of_beq heq] at hchar
    exact absurd hchar (by decide)
  · rw [eq_of_beq heq] at hchar
    exact absurd hchar (by decide)

theorem unbroken_objectType : Unbroken objectType.text.toList := by decide

theorem unbroken_decoderParams : ∀ p ∈ decoderParams, Unbroken p.text.toList := by decide

/-- The declaration of a decoder is one line. -/
theorem lineCount_scriptDecoder (r : Record) : lineCount [.prototype (scriptDecoderSignature r)] = 1 := by
  refine lineCount_prototype rfl rfl unbroken_objectType ?_ unbroken_decoderParams
  show Unbroken ("mp_decode_" ++ typeIdentifier r).toList
  exact unbroken_toList_append_iff.2 ⟨by decide, unbroken_name _⟩

theorem lineCount_stores : lineCount (StoreKind.all.map fun k => .prototype k.signature) = 3 := by
  have hone : ∀ k : StoreKind, lineCount [.prototype k.signature] = 1 := by
    intro k
    cases k <;> exact lineCount_prototype rfl rfl (by decide) (by decide) (by decide)
  rw [StoreKind.all, List.map_cons, List.map_cons, List.map_singleton, lineCount_cons _ (_ :: _), lineCount_cons _ [_], hone, hone, hone]

/-- What stands behind the decoders, up to the functions that store, are five lines. -/
theorem lineCount_shared :
    lineCount [dispatchComment, .prototype dispatchSignature, .blank, .comment "Utility functions", .prototype createSignature] = 5 := by
  have hdispatch : lineCount [.prototype dispatchSignature] = 1 := lineCount_prototype rfl rfl unbroken_objectType (by decide) (by decide)
  have hcreate : lineCount [.prototype createSignature] = 1 := lineCount_prototype rfl rfl unbroken_objectType (by decide) (by decide)
  have hcomment : lineCount [dispatchComment] = 1 := by decide +kernel
  have hutility : lineCount [.comment "Utility functions"] = 1 := by decide +kernel
  have hblank : lineCount [.blank] = 1 := rfl
  rw [lineCount_cons _ (_ :: _), lineCount_cons _ (_ :: _ :: _), lineCount_cons _ (_ :: _ :: _), lineCount_cons _ [_], hdispatch, hcreate,
    hcomment, hutility, hblank]

/-- The header has thirteen lines besides those of its decoders, and every decoder has two besides those of its comment. -/
theorem lineCount_decoderHeader (b : Bindings) : lineCount b.decoderHeader =
    13 + 2 * b.decoders.length + (b.decoders.map fun r => lineCount [decoderComment r]).sum := by
  have hblank : lineCount [.blank] = 1 := rfl
  have hfront : lineCount [.pragmaOnce, .includeLocal "py/obj.h", .blank, generatedNote, .blank] = 5 := by decide +kernel
  have hdecoders : ∀ rs : List Record, lineCount (rs.flatMap fun r => [decoderComment r, .prototype (scriptDecoderSignature r), .blank]) =
      2 * rs.length + (rs.map fun r => lineCount [decoderComment r]).sum := by
    intro rs
    induction rs with
    | nil => rfl
    | cons r rs ih =>
      have hthree : lineCount [decoderComment r, .prototype (scriptDecoderSignature r), .blank] =
          lineCount [decoderComment r] + (lineCount [.prototype (scriptDecoderSignature r)] + lineCount [.blank]) := by
        rw [← lineCount_append, ← lineCount_append]
        rfl
      rw [List.flatMap_cons, lineCount_append, ih, hthree, lineCount_scriptDecoder, hblank, List.length_cons, List.map_cons, List.sum_cons]
      omega
  rw [Bindings.decoderHeader, lineCount_append, lineCount_append, lineCount_append, hfront, hdecoders, lineCount_shared, lineCount_stores]
  omega

/-- The comment with the module name stands only at the start of the symbol table. -/
theorem aloneOnLine_symbolTable_iff (b : Bindings) :
    AloneOnLine b.symbolTable ("Symbols of the " ++ b.options.moduleName ++ " module") ↔ Unbroken b.options.moduleName.toList := by
  rw [← oneLine_symbolsComment]
  refine aloneOnLine_head_iff (List.cons_ne_nil _ _) fun hmem => ?_
  rcases List.mem_cons.1 hmem with hnote | hmem
  · have hstart : "Symbols of the ".toList <+: "Generated from device type catalogs, do not edit".toList := by
      rw [← Item.comment.inj hnote, String.toList_append, String.toList_append, List.append_assoc]
      exact List.prefix_append _ _
    exact absurd hstart (by decide)
  · rcases List.mem_cons.1 hmem with hblank | hsymbol
    · cases hblank
    · obtain ⟨_, -, hitem⟩ := List.mem_map.1 hsymbol
      cases hitem

/-- The comment of a decoder is alone on its line in the header when the name of its type fits on one line. -/
theorem aloneOnLine_decoderHeader_iff {b : Bindings} {r : Record} (hr : r ∈ b.decoders) :
    AloneOnLine b.decoderHeader ("Decoder for " ++ r.device.typeName) ↔ OneLine r.device.typeName.toList := by
  rw [← oneLine_decoderComment]
  refine aloneOnLine_iff (commentsApart_decoderHeader b) ?_
  refine List.mem_append_left _ (List.mem_append_left _ (List.mem_append_right _ ?_))
  exact List.mem_flatMap.2 ⟨r, hr, List.mem_cons_self⟩

/-- The comment of a decoder is alone on its line in the source under the same condition. -/
theorem aloneOnLine_decoderSource_iff {b : Bindings} {r : Record} (hr : r ∈ b.decoders) (headerName pollRecordsName : String) :
    AloneOnLine (b.decoderSource headerName pollRecordsName) ("Decoder for " ++ r.device.typeName) ↔ OneLine r.device.typeName.toList := by
  rw [← oneLine_decoderComment]
  refine aloneOnLine_iff (commentsApart_decoderSource b headerName pollRecordsName) ?_
  refine List.mem_append_left _ (List.mem_append_right _ ?_)
  exact List.mem_flatMap.2 ⟨r, hr, List.mem_cons_self⟩

/-- In the header and in the sources, the comment of a decoder is a source line of its own when nothing in the type name ends a line and it
does not end in a backslash, and only then; at the start of the symbol table, when nothing in the module name ends a line, and only then. The
number of lines of the header follows from the number of decoders and the lines of their comments. -/
theorem comments_stay_on_line_iff (b : Bindings) (headerName pollRecordsName : String) :
    (∀ r ∈ b.decoders,
      (AloneOnLine b.decoderHeader ("Decoder for " ++ r.device.typeName) ↔ OneLine r.device.typeName.toList) ∧
      (AloneOnLine (b.decoderSource headerName pollRecordsName) ("Decoder for " ++ r.device.typeName) ↔
        OneLine r.device.typeName.toList)) ∧
    (AloneOnLine b.symbolTable ("Symbols of the " ++ b.options.moduleName ++ " module") ↔ Unbroken b.options.moduleName.toList) ∧
    lineCount b.decoderHeader = 13 + 2 * b.decoders.length + (b.decoders.map fun r => lineCount [decoderComment r]).sum := by
  refine ⟨fun r hr => ?_, aloneOnLine_symbolTable_iff b, lineCount_decoderHeader b⟩
  exact ⟨aloneOnLine_decoderHeader_iff hr, aloneOnLine_decoderSource_iff hr headerName pollRecordsName⟩

/-- A backslash inside a type name does no harm. -/
theorem comments_stay_on_line_inner_backslash :
    ∃ m b r, (Model.build [{ key := "A", typeName := "a\\b" }]).outcome = .ok m ∧ (Bindings.ofModel m {}).outcome = .ok b ∧
      r ∈ b.decoders ∧ r.device.typeName = "a\\b" ∧ AloneOnLine b.decoderHeader ("Decoder for " ++ r.device.typeName) ∧
      AloneOnLine (b.decoderSource "decoders.h" "records.h") ("Decoder for " ++ r.device.typeName) := by
  obtain ⟨m, b, r, hm, hb, -, hr, hdevice, -⟩ := exists_single_decoder (d := { key := "A", typeName := "a\\b" }) (by decide) (by decide) {}
  have hname : r.device.typeName = "a\\b" := by rw [hdevice]
  obtain ⟨hheader, hsource⟩ := (comments_stay_on_line_iff b "decoders.h" "records.h").1 r hr
  have hone : OneLine r.device.typeName.toList := by
    rw [hname]
    decide
  exact ⟨m, b, r, hm, hb, hr, hname, hheader.2 hone, hsource.2 hone⟩

/-- Behind the end of a line a type name is code: a device type that is accepted, with options that are valid, brings a declaration of its
own into the header, which gets a line more. -/
theorem type_name_leaves_comment :
    ∃ m b, (Model.build [{ key := "A", typeName := "a\nint x;" }]).outcome = .ok m ∧
      ({ script := some {} } : Options).validate.isOk = true ∧ (Bindings.ofModel m {}).outcome = .ok b ∧
      ¬ AloneOnLine b.decoderHeader "Decoder for a\nint x;" ∧ "int x;".toList ∈ sourceLines (fileText b.decoderHeader) ∧
      b.decoders.length = 1 ∧ lineCount b.decoderHeader = 17 := by
  obtain ⟨m, r, hm, hrecords, hdevice, -⟩ := Model.exists_build_singleton (d := { key := "A", typeName := "a\nint x;" }) (by decide)
  obtain ⟨b, hb, hdecoders⟩ := exists_bindings_singleton hrecords (by rw [hdevice]; decide) {}
  have hcomment : decoderComment r = .comment "Decoder for a\nint x;" := by
    rw [decoderComment, hdevice]
    rfl
  have hlines : lines (fileText [decoderComment r]).toList = ["// Decoder for a".toList, "int x;".toList] := by
    rw [hcomment]
    decide +kernel
  have hcount : lineCount [decoderComment r] = 2 := by rw [lineCount, hlines]; rfl
  refine ⟨m, b, hm, by decide +kernel, hb, fun halone => ?_, ?_, by rw [hdecoders]; rfl, ?_⟩
  · have hiff := aloneOnLine_decoderHeader_iff (hdecoders ▸ List.mem_singleton_self r)
    rw [hdevice] at hiff
    exact absurd (hiff.1 halone) (by decide)
  · obtain ⟨behind, hheader⟩ : ∃ behind, b.decoderHeader =
        [.pragmaOnce, .includeLocal "py/obj.h", .blank, generatedNote] ++ [.blank] ++ ([decoderComment r] ++ behind) := by
      rw [Bindings.decoderHeader, hdecoders]
      exact ⟨_, rfl⟩
    rw [hheader, sourceLines_append_blank, sourceLines, sourceLines, fileText_append [decoderComment r], String.toList_append,
      lines_append (complete_fileText _), hlines]
    refine List.mem_append_right _ ?_
    rw [List.cons_append, List.singleton_append, splice_cons_of_not_continues (by decide), splice_cons_of_not_continues (by decide)]
    exact List.mem_cons_of_mem _ List.mem_cons_self
  · rw [lineCount_decoderHeader, hdecoders, List.map_singleton, hcount]
    rfl

end Artifact

end DeviceCatalog

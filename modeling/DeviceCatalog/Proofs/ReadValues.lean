import DeviceCatalog.Json.Reader
import DeviceCatalog.Proofs.FirstFailure
import Mathlib.Data.List.Nodup

/-!
# What holds of every value that is read

A value is read from its parts, the deepest ones first. What passes from the parts to the whole (`Inherited`) therefore holds of every value
that is read and of every part of it. A text may write a key twice, but a member that is written again is set in place: where it matters, the
keys of an object are distinct.
-/

namespace DeviceCatalog.Json

/-- A property that passes from the parts of a value to the whole, as the reader makes them. -/
structure Inherited (P : Json → Prop) : Prop where
  null : P .null
  bool : ∀ b, P (.bool b)
  string : ∀ s, P (.string s)
  number : ∀ {minus cs x rest}, readNumeral minus cs = .ok (x, rest) → P (.number x)
  array : ∀ {items}, (∀ v ∈ items, P v) → P (.array items)
  object : ∀ {ms : List (String × Json)}, (ms.map Prod.fst).Nodup → (∀ m ∈ ms, P m.2) → P (.object ms)

/-- Setting a member leaves the keys as they are or adds the new one at the end. -/
theorem keys_setMember (key : String) (value : Json) (ms : List (String × Json)) :
    (setMember key value ms).map Prod.fst =
      if key ∈ ms.map Prod.fst then ms.map Prod.fst else ms.map Prod.fst ++ [key] := by
  induction ms with
  | nil => simp [setMember]
  | cons m ms ih =>
    obtain ⟨k, v⟩ := m
    by_cases h : k = key
    · simp [setMember, h]
    · have h' : ¬key = k := fun e => h e.symm
      simp only [setMember, h, if_false, List.map_cons, ih, List.mem_cons, h', false_or]
      split <;> simp

/-- A member that is set is the new one or one that was there. -/
theorem mem_setMember {key : String} {value : Json} {ms : List (String × Json)} {m : String × Json}
    (h : m ∈ setMember key value ms) : m = (key, value) ∨ m ∈ ms := by
  induction ms with
  | nil => exact Or.inl (List.mem_singleton.1 h)
  | cons first ms ih =>
    obtain ⟨k, v⟩ := first
    rw [setMember] at h
    split at h
    · rename_i heq
      rcases List.mem_cons.1 h with rfl | h
      · exact Or.inl (by rw [heq])
      · exact Or.inr (List.mem_cons_of_mem _ h)
    · rcases List.mem_cons.1 h with rfl | h
      · exact Or.inr List.mem_cons_self
      · exact (ih h).imp_right (List.mem_cons_of_mem _)

/-- A value that an object has under a key is that of one of its members. -/
theorem mem_of_member? {v w : Json} {key : String} (h : v.member? key = some w) : ∃ ms, v = .object ms ∧ (key, w) ∈ ms := by
  cases v with
  | object ms =>
    obtain ⟨before, after, hsplit, -⟩ := List.lookup_eq_some_iff.1 h
    have hms : ms = before ++ (key, w) :: after := hsplit
    exact ⟨ms, rfl, hms ▸ List.mem_append_right _ List.mem_cons_self⟩
  | _ => cases h

/-- Setting a member keeps the keys distinct. -/
theorem nodup_keys_setMember {key : String} {value : Json} {ms : List (String × Json)} (h : (ms.map Prod.fst).Nodup) :
    ((setMember key value ms).map Prod.fst).Nodup := by
  rw [keys_setMember]
  split
  · exact h
  · rename_i hnew
    rw [← List.concat_eq_append]
    exact h.concat hnew

/-! ## Comparing values -/

mutual

/-- Two values are the same, part by part. -/
def same : Json → Json → Bool
  | .null, .null => true
  | .bool a, .bool b => a = b
  | .number m, .number n => m = n
  | .string s, .string t => s = t
  | .array vs, .array ws => sameItems vs ws
  | .object ms, .object ns => sameMembers ms ns
  | _, _ => false
termination_by structural v => v

/-- The items of two arrays are the same. -/
def sameItems : List Json → List Json → Bool
  | [], [] => true
  | v :: vs, w :: ws => same v w && sameItems vs ws
  | _, _ => false
termination_by structural v => v

/-- The members of two objects are the same, in the same order. -/
def sameMembers : List (String × Json) → List (String × Json) → Bool
  | [], [] => true
  | m :: ms, n :: ns => sameMember m n && sameMembers ms ns
  | _, _ => false
termination_by structural v => v

/-- Two members have the same key and the same value. -/
def sameMember : String × Json → String × Json → Bool
  | (k, v), (l, w) => k = l && same v w
termination_by structural v => v

end

mutual

/-- Values that are the same part by part are equal. -/
theorem same_iff (v w : Json) : same v w = true ↔ v = w := by
  cases v with
  | array vs => cases w <;> simp [same, sameItems_iff vs]
  | object ms => cases w <;> simp [same, sameMembers_iff ms]
  | _ => cases w <;> simp [same]

/-- Arrays with the same items are equal. -/
theorem sameItems_iff (vs ws : List Json) : sameItems vs ws = true ↔ vs = ws := by
  cases vs with
  | nil => cases ws <;> simp [sameItems]
  | cons v vs => cases ws <;> simp [sameItems, same_iff v, sameItems_iff vs]

/-- Objects with the same members are equal. -/
theorem sameMembers_iff (ms ns : List (String × Json)) : sameMembers ms ns = true ↔ ms = ns := by
  cases ms with
  | nil => cases ns <;> simp [sameMembers]
  | cons m ms => cases ns <;> simp [sameMembers, sameMember_iff m, sameMembers_iff ms]

/-- Members with the same key and the same value are equal. -/
theorem sameMember_iff (m n : String × Json) : sameMember m n = true ↔ m = n := by
  obtain ⟨k, v⟩ := m
  obtain ⟨l, w⟩ := n
  simp [sameMember, same_iff v]

end

/-- Equality of values can be decided, so what a closed text reads as can be computed. -/
instance : DecidableEq Json := fun v w => decidable_of_iff _ (same_iff v w)

/-! ## The reader -/

/-- A word stands for its value. -/
theorem eq_of_readWord {value v : Json} {word cs rest : List Char} (h : readWord value word cs = .ok (v, rest)) : v = value := by
  induction word generalizing cs with
  | nil =>
    cases h
    rfl
  | cons w word ih =>
    rw [readWord] at h
    cases hchar : readChar w cs with
    | error d =>
      rw [hchar] at h
      cases h
    | ok r =>
      rw [hchar] at h
      exact ih h

variable {P : Json → Prop} {item : List Char → Read Json}

/-- Items are put to those that are done one by one, as the reader of items gives them. -/
theorem forall_of_readItems (hitem : ∀ cs v rest, item cs = .ok (v, rest) → P v) {n : Nat} {first : Bool} {done items : List Json}
    {cs rest : List Char} (hdone : ∀ v ∈ done, P v) (h : readItems item n first done cs = .ok (items, rest)) : ∀ v ∈ items, P v := by
  fun_induction readItems item n first done cs with
  | case3 =>
    cases h
    intro v hv
    exact hdone v (List.mem_reverse.1 hv)
  | case4 =>
    rename_i hv ih
    exact ih (List.forall_mem_cons.2 ⟨hitem _ _ _ hv, hdone⟩) h
  | case8 =>
    rename_i hv ih
    exact ih (List.forall_mem_cons.2 ⟨hitem _ _ _ hv, hdone⟩) h
  | _ => cases h

/-- What holds of every item that is read holds of the value of a member. -/
theorem holds_of_readMember (hitem : ∀ cs v rest, item cs = .ok (v, rest) → P v) {key : String} {v : Json} {cs rest : List Char}
    (h : readMember item cs = .ok ((key, v), rest)) : P v := by
  simp only [readMember, Outcome.bind_eq_ok_iff] at h
  obtain ⟨⟨k, afterKey⟩, -, ⟨_, afterColon⟩, -, ⟨w, afterValue⟩, hw, h⟩ := h
  simp only [Except.ok.injEq, Prod.mk.injEq] at h
  obtain ⟨⟨-, rfl⟩, -⟩ := h
  exact hitem _ _ _ hw

/-- Members are set one by one among those that are done, so their keys stay distinct. -/
theorem forall_of_readMembers (hitem : ∀ cs v rest, item cs = .ok (v, rest) → P v) {n : Nat} {first : Bool} {done ms : List (String × Json)}
    {cs rest : List Char} (hkeys : (done.map Prod.fst).Nodup) (hdone : ∀ m ∈ done, P m.2)
    (h : readMembers item n first done cs = .ok (ms, rest)) : (ms.map Prod.fst).Nodup ∧ ∀ m ∈ ms, P m.2 := by
  fun_induction readMembers item n first done cs with
  | case3 =>
    cases h
    exact ⟨hkeys, hdone⟩
  | case6 =>
    rename_i hmember ih
    refine ih (nodup_keys_setMember hkeys) (fun m hm => ?_) h
    rcases mem_setMember hm with rfl | hm
    · exact holds_of_readMember hitem hmember
    · exact hdone m hm
  | _ => cases h

namespace Inherited

/-- The induction is on the depth: items and members are values of one depth less. -/
theorem of_readValue (hP : Inherited P) {depth : Nat} {cs rest : List Char} {v : Json} : readValue depth cs = .ok (v, rest) → P v := by
  induction depth using Nat.strongRecOn generalizing cs rest v with
  | ind depth ih =>
    -- Only an array or an object goes deeper, and both use up one level of depth.
    fun_cases readValue depth cs with
    | case2 =>
      intro h
      obtain ⟨⟨s, _⟩, -, h⟩ := Outcome.map_eq_ok_iff.1 h
      cases h
      exact hP.string s
    | case4 _ d =>
      intro h
      obtain ⟨⟨items, _⟩, hitems, h⟩ := Outcome.map_eq_ok_iff.1 h
      cases h
      exact hP.array (forall_of_readItems (fun _ _ _ => ih d (Nat.lt_succ_self d)) (by simp) hitems)
    | case6 _ d =>
      intro h
      obtain ⟨⟨ms, _⟩, hmembers, h⟩ := Outcome.map_eq_ok_iff.1 h
      cases h
      obtain ⟨hkeys, hvalues⟩ := forall_of_readMembers (fun _ _ _ => ih d (Nat.lt_succ_self d)) (by simp) (by simp) hmembers
      exact hP.object hkeys hvalues
    | case7 => exact fun h => eq_of_readWord h ▸ hP.null
    | case8 => exact fun h => eq_of_readWord h ▸ hP.bool true
    | case9 => exact fun h => eq_of_readWord h ▸ hP.bool false
    | case10 =>
      intro h
      obtain ⟨⟨x, _⟩, hx, h⟩ := Outcome.map_eq_ok_iff.1 h
      cases h
      exact hP.number hx
    | case11 =>
      intro h
      obtain ⟨⟨x, _⟩, hx, h⟩ := Outcome.map_eq_ok_iff.1 h
      cases h
      exact hP.number hx
    | _ =>
      intro h
      cases h

/-- What is inherited holds of every value that a text is read as. -/
theorem of_parse (hP : Inherited P) {text : String} {root : Json} (h : parse text = .ok root) : P root := by
  obtain ⟨⟨v, rest⟩, hv, h⟩ := Outcome.bind_eq_ok_iff.1 h
  dsimp only at h
  split at h
  · cases h
    exact hP.of_readValue hv
  · cases h

end Inherited

end DeviceCatalog.Json

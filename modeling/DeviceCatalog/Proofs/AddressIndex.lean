import DeviceCatalog.AddressIndex
import Mathlib.Data.List.Induction
import Mathlib.Order.Bounds.Basic

/-!
# The address index: every claim is listed once

One claim adds one position to one list (`positions?_claim`) and the run along the catalog adds the claims of every device type in
turn (`positions_foldl_register`), so the list of an address is the sequence `claims` of the positions that claim it. What the index
promises is read off that sequence.
-/

namespace DeviceCatalog

namespace AddressIndex

/-! ## One claim -/

@[simp] theorem positions?_empty (a : Address) : empty.positions? a = none := by
  unfold positions? empty
  split <;> simp

/-- Addresses beyond the index have no list. -/
theorem positions?_of_le (index : AddressIndex) {a : Address} (h : Address.indexed ≤ a.toNat) : index.positions? a = none :=
  dif_neg (Nat.not_lt.2 h)

/-- A claim adds its position to the list of its address, if the index covers that, and leaves the other lists alone. -/
theorem positions?_claim (index : AddressIndex) (p : UInt16) (a b : Address) :
    (index.claim p a).positions? b =
      if a = b ∧ b.toNat < Address.indexed then some (index.positions b ++ [p]) else index.positions? b := by
  by_cases ha : a.toNat < Address.indexed
  · by_cases hb : b.toNat < Address.indexed
    · have hab : a.toNat = b.toNat ↔ a = b := UInt8.toNat_inj
      simp only [claim, ha, dite_true, positions?, hb, positions, Vector.getElem_set, hab, and_true]
      split
      · rename_i h
        subst h
        cases index.slots[a.toNat] <;> simp
      · rfl
    · simp [positions?, hb]
  · have hne : ¬ (a = b ∧ b.toNat < Address.indexed) := by
      rintro ⟨rfl, h⟩
      exact ha h
    rw [if_neg hne, claim, dif_neg ha]

/-- An address without claims has no list, so no list is empty. -/
def NoneEmpty (index : AddressIndex) : Prop :=
  ∀ a, index.positions? a ≠ some []

theorem noneEmpty_empty : NoneEmpty empty := by
  intro a
  rw [positions?_empty]
  exact nofun

theorem NoneEmpty.claim {index : AddressIndex} (h : NoneEmpty index) (p : UInt16) (a : Address) : NoneEmpty (index.claim p a) := by
  intro b
  rw [positions?_claim]
  split
  · simp
  · exact h b

/-- An address without a list is one without positions. -/
theorem positions?_eq_none_iff {index : AddressIndex} (h : NoneEmpty index) {a : Address} :
    index.positions? a = none ↔ index.positions a = [] := by
  unfold positions
  cases hp : index.positions? a with
  | none => simp
  | some ps =>
    have hne : ps ≠ [] := by
      rintro rfl
      exact h a hp
    simpa using hne

/-! ## One device type -/

/-- The claims of a numbered device type whose number fits. -/
def register (index : AddressIndex) (device : DeviceType × Nat) : AddressIndex :=
  index.claimAll (UInt16.ofNat device.2) device.1.addresses

theorem NoneEmpty.register {index : AddressIndex} (h : NoneEmpty index) (device : DeviceType × Nat) :
    NoneEmpty (index.register device) := by
  unfold AddressIndex.register claimAll
  generalize device.1.addresses = addresses
  induction addresses generalizing index with
  | nil => exact h
  | cons a addresses ih => exact ih (h.claim _ a)

/-- A device type adds its position as often as it lists the address. -/
theorem positions_register (index : AddressIndex) (device : DeviceType × Nat) {b : Address} (hb : b.toNat < Address.indexed) :
    (index.register device).positions b =
      index.positions b ++ List.replicate (device.1.addresses.count b) (UInt16.ofNat device.2) := by
  unfold register claimAll
  generalize device.1.addresses = addresses
  generalize UInt16.ofNat device.2 = p
  induction addresses generalizing index with
  | nil => simp
  | cons a addresses ih =>
    rw [List.foldl_cons, ih, positions, positions?_claim, List.count_cons]
    by_cases hab : a = b
    · rw [if_pos ⟨hab, hb⟩, if_pos (beq_iff_eq.2 hab), Option.getD_some, List.append_assoc]
      rfl
    · rw [if_neg fun h => hab h.1, if_neg fun h => hab (beq_iff_eq.1 h)]
      rfl

/-- The number of the device type does not fit and is needed. -/
def Overflows (device : DeviceType × Nat) : Prop :=
  UInt16.size ≤ device.2 ∧ device.1.addresses ≠ []

/-- A device type at a position that fits is registered. -/
theorem add_eq_ok {n : Nat} {index : AddressIndex} {device : DeviceType × Nat} (h : ¬ Overflows device) :
    add n index device = .ok (index.register device) := by
  unfold add
  split
  · rename_i hempty
    rw [register, List.isEmpty_iff.1 hempty]
    rfl
  · rename_i hempty
    have hlt : device.2 < UInt16.size := by
      by_contra hge
      exact h ⟨Nat.not_lt.1 hge, fun e => hempty (List.isEmpty_iff.2 e)⟩
    rw [if_pos hlt]
    rfl

theorem add_eq_error {n : Nat} {index : AddressIndex} {device : DeviceType × Nat} (h : Overflows device) :
    add n index device = .error (.tooManyTypes n) := by
  rw [add, if_neg fun e => h.2 (List.isEmpty_iff.1 e), if_neg (Nat.not_lt.2 h.1)]

/-! ## The run along the catalog -/

/-- A run over device types that all fit registers them in turn. -/
theorem foldlM_add_eq_ok {n : Nat} {devices : List (DeviceType × Nat)} (index : AddressIndex) (h : ∀ x ∈ devices, ¬ Overflows x) :
    devices.foldlM (add n) index = .ok (devices.foldl register index) := by
  induction devices generalizing index with
  | nil => rfl
  | cons x devices ih =>
    rw [List.foldlM_cons, add_eq_ok (h x List.mem_cons_self), List.foldl_cons]
    exact ih _ fun y hy => h y (List.mem_cons_of_mem _ hy)

/-- A run that meets a device type that does not fit fails, whatever is behind it. -/
theorem foldlM_add_eq_error {n : Nat} {devices : List (DeviceType × Nat)} (index : AddressIndex) (h : ∃ x ∈ devices, Overflows x) :
    devices.foldlM (add n) index = .error (.tooManyTypes n) := by
  induction devices generalizing index with
  | nil =>
    obtain ⟨x, hx, -⟩ := h
    cases hx
  | cons x devices ih =>
    rw [List.foldlM_cons]
    by_cases hx : Overflows x
    · rw [add_eq_error hx]
      rfl
    · rw [add_eq_ok hx]
      obtain ⟨y, hy, hover⟩ := h
      rcases List.mem_cons.1 hy with rfl | hy
      · exact absurd hover hx
      · exact ih _ ⟨y, hy, hover⟩

/-- The numbers of the device types that claim an address, in catalog order and as often as they list it. -/
def claims (devices : List (DeviceType × Nat)) (a : Address) : List Nat :=
  devices.flatMap fun device => List.replicate (device.1.addresses.count a) device.2

/-- A position claims an address when the device type there does. -/
theorem mem_claims {devices : List (DeviceType × Nat)} {a : Address} {p : Nat} :
    p ∈ claims devices a ↔ ∃ d, (d, p) ∈ devices ∧ a ∈ d.addresses := by
  rw [claims, List.mem_flatMap]
  constructor
  · intro h
    obtain ⟨⟨d, q⟩, hd, hp⟩ := h
    obtain ⟨hcount, rfl⟩ := List.mem_replicate.1 hp
    exact ⟨d, hd, List.count_pos_iff.1 (Nat.pos_of_ne_zero hcount)⟩
  · intro h
    obtain ⟨d, hd, ha⟩ := h
    exact ⟨(d, p), hd, List.mem_replicate.2 ⟨(List.count_pos_iff.2 ha).ne', rfl⟩⟩

/-- The run adds the claims of all device types. -/
theorem positions_foldl_register (devices : List (DeviceType × Nat)) (index : AddressIndex) {a : Address}
    (ha : a.toNat < Address.indexed) :
    (devices.foldl register index).positions a = index.positions a ++ (claims devices a).map UInt16.ofNat := by
  induction devices generalizing index with
  | nil => simp [claims]
  | cons x devices ih =>
    rw [List.foldl_cons, ih, positions_register index x ha, List.append_assoc]
    simp [claims]

/-- Registering device types leaves no empty list behind. -/
theorem NoneEmpty.foldl_register {index : AddressIndex} (h : NoneEmpty index) (devices : List (DeviceType × Nat)) :
    NoneEmpty (devices.foldl AddressIndex.register index) := by
  induction devices generalizing index with
  | nil => exact h
  | cons x devices ih => exact ih (h.register x)

/-! ## The claims of a catalog -/

/-- One more device type adds its position for every time that it names the address. -/
theorem claims_zipIdx_concat (devices : List DeviceType) (d : DeviceType) (a : Address) :
    claims (devices ++ [d]).zipIdx a = claims devices.zipIdx a ++ List.replicate (d.addresses.count a) devices.length := by
  simp [claims, List.zipIdx_append]

/-- An address is not claimed when no device type names it. -/
theorem claims_eq_nil_iff {devices : List DeviceType} {a : Address} :
    claims devices.zipIdx a = [] ↔ ∀ d ∈ devices, a ∉ d.addresses := by
  rw [List.eq_nil_iff_forall_not_mem]
  constructor
  · intro h d hd ha
    obtain ⟨p, hp⟩ := List.mem_iff_getElem?.1 hd
    exact h p (mem_claims.2 ⟨d, List.mem_zipIdx_iff_getElem?.2 hp, ha⟩)
  · intro h p hp
    obtain ⟨d, hd, ha⟩ := mem_claims.1 hp
    exact h d (List.mem_of_getElem? (List.mem_zipIdx_iff_getElem?.1 hd)) ha

/-- A position that claims an address is one of a device type. -/
theorem lt_length_of_mem_claims {devices : List DeviceType} {a : Address} {p : Nat} (h : p ∈ claims devices.zipIdx a) :
    p < devices.length := by
  obtain ⟨d, hd, -⟩ := mem_claims.1 h
  exact (List.getElem?_eq_some_iff.1 (List.mem_zipIdx_iff_getElem?.1 hd)).1

/-- The claims of an address stand in catalog order. -/
theorem pairwise_claims (devices : List DeviceType) (a : Address) : (claims devices.zipIdx a).Pairwise (· ≤ ·) := by
  induction devices using List.reverseRecOn with
  | nil => exact List.Pairwise.nil
  | append_singleton devices d ih =>
    rw [claims_zipIdx_concat, List.pairwise_append]
    refine ⟨ih, List.pairwise_replicate.2 (Or.inr (Nat.le_refl _)), ?_⟩
    intro p hp q hq
    rw [(List.mem_replicate.1 hq).2]
    exact Nat.le_of_lt (lt_length_of_mem_claims hp)

/-- A device type is among the claims of an address as often as it lists it. -/
theorem count_claims {devices : List DeviceType} {p : Nat} {d : DeviceType} (h : devices[p]? = some d) (a : Address) :
    (claims devices.zipIdx a).count p = d.addresses.count a := by
  induction devices using List.reverseRecOn with
  | nil => cases h
  | append_singleton devices last ih =>
    rw [claims_zipIdx_concat, List.count_append, List.count_replicate]
    by_cases hp : p < devices.length
    · rw [List.getElem?_append_left hp] at h
      rw [ih h, if_neg fun e => absurd (beq_iff_eq.1 e) (Nat.ne_of_gt hp), Nat.add_zero]
    · have hlen : p = devices.length := by
        have := (List.getElem?_eq_some_iff.1 h).1
        rw [List.length_append, List.length_singleton] at this
        omega
      subst hlen
      rw [List.getElem?_concat_length] at h
      rw [Option.some.inj h, List.count_eq_zero.2 fun hmem => absurd (lt_length_of_mem_claims hmem) (Nat.lt_irrefl _),
        if_pos (beq_self_eq_true _), Nat.zero_add]

/-! ## The index of a catalog -/

/-- A device type with addresses stands beyond the numbers that fit. -/
theorem exists_overflows {devices : List DeviceType} :
    (∃ x ∈ devices.zipIdx, Overflows x) ↔ ∃ p d, devices[p]? = some d ∧ UInt16.size ≤ p ∧ d.addresses ≠ [] := by
  constructor
  · intro h
    obtain ⟨⟨d, p⟩, hmem, hover⟩ := h
    exact ⟨p, d, List.mem_zipIdx_iff_getElem?.1 hmem, hover⟩
  · intro h
    obtain ⟨p, d, hget, hover⟩ := h
    exact ⟨(d, p), List.mem_zipIdx_iff_getElem?.2 hget, hover⟩

/-- Building the index fails when a device type has a position that does not fit, and it names their number. -/
theorem build_eq_error_iff {devices : List DeviceType} {f : Failure} :
    build devices = .error f ↔ f = .tooManyTypes devices.length ∧ ∃ x ∈ devices.zipIdx, Overflows x := by
  unfold build
  by_cases h : ∃ x ∈ devices.zipIdx, Overflows x
  · rw [foldlM_add_eq_error empty h, Except.error.injEq, eq_comm]
    exact (and_iff_left h).symm
  · rw [foldlM_add_eq_ok empty fun x hx hover => h ⟨x, hx, hover⟩]
    exact ⟨nofun, fun ⟨_, hover⟩ => absurd hover h⟩

/-- Building the index registers all device types when every position fits. -/
theorem build_eq_ok_iff {devices : List DeviceType} {index : AddressIndex} :
    build devices = .ok index ↔ (∀ x ∈ devices.zipIdx, ¬ Overflows x) ∧ index = devices.zipIdx.foldl register empty := by
  unfold build
  by_cases h : ∃ x ∈ devices.zipIdx, Overflows x
  · rw [foldlM_add_eq_error empty h]
    obtain ⟨x, hx, hover⟩ := h
    exact ⟨nofun, fun ⟨hfits, _⟩ => absurd hover (hfits x hx)⟩
  · have hfits : ∀ x ∈ devices.zipIdx, ¬ Overflows x := fun x hx hover => h ⟨x, hx, hover⟩
    rw [foldlM_add_eq_ok empty hfits, Except.ok.injEq, eq_comm]
    exact (and_iff_right hfits).symm

/-- The sixteen bits of a listed position hold all of it: an index lists the claims themselves. -/
theorem map_toNat_positions {devices : List DeviceType} {index : AddressIndex} (h : build devices = .ok index) {a : Address}
    (ha : a.toNat < Address.indexed) : (index.positions a).map UInt16.toNat = claims devices.zipIdx a := by
  obtain ⟨hfits, rfl⟩ := build_eq_ok_iff.1 h
  have hempty : empty.positions a = [] := by rw [positions, positions?_empty, Option.getD_none]
  rw [positions_foldl_register _ _ ha, hempty, List.nil_append, List.map_map]
  have hfit : ∀ p ∈ claims devices.zipIdx a, (UInt16.toNat ∘ UInt16.ofNat) p = p := by
    intro p hp
    obtain ⟨d, hd, hmem⟩ := mem_claims.1 hp
    have hlt : p < UInt16.size := by
      by_contra hge
      exact hfits _ hd ⟨Nat.not_lt.1 hge, List.ne_nil_of_mem hmem⟩
    exact UInt16.toNat_ofNat_of_lt' hlt
  exact (List.map_congr_left hfit).trans (List.map_id' _)

/-- The index that was built holds no empty list. -/
theorem noneEmpty_of_build {devices : List DeviceType} {index : AddressIndex} (h : build devices = .ok index) :
    NoneEmpty index := by
  obtain ⟨-, rfl⟩ := build_eq_ok_iff.1 h
  exact noneEmpty_empty.foldl_register _

/-! ## The greatest count -/

theorem mem_indexed {a : Address} : a ∈ Address.all.take Address.indexed ↔ a.toNat < Address.indexed := by
  rw [Address.all, ← List.map_take, List.take_range, List.mem_map]
  constructor
  · intro h
    obtain ⟨i, hi, rfl⟩ := h
    have hlt : i < Address.indexed := List.mem_range.1 hi
    rw [UInt8.toNat_ofNat_of_lt' (Nat.lt_trans hlt (by decide))]
    exact hlt
  · intro h
    exact ⟨a.toNat, List.mem_range.2 h, UInt8.ofNat_toNat⟩

/-- An address is claimed with the list that it has. -/
theorem mem_claimed {index : AddressIndex} {a : Address} {ps : List UInt16} :
    (a, ps) ∈ index.claimed ↔ index.positions? a = some ps := by
  rw [claimed, toList, List.mem_filterMap]
  constructor
  · intro h
    obtain ⟨⟨b, qs⟩, hmem, hsome⟩ := h
    obtain ⟨c, -, hc⟩ := List.mem_map.1 hmem
    obtain ⟨rfl, rfl⟩ := Prod.mk.inj hc
    obtain ⟨rs, hrs, heq⟩ := Option.map_eq_some_iff.1 hsome
    obtain ⟨rfl, rfl⟩ := Prod.mk.inj heq
    exact hrs
  · intro h
    have ha : a.toNat < Address.indexed := by
      by_contra hge
      rw [positions?_of_le index (Nat.not_lt.1 hge)] at h
      cases h
    refine ⟨(a, some ps), List.mem_map.2 ⟨a, mem_indexed.2 ha, by rw [h]⟩, rfl⟩

/-- The greatest count is the count of some address, and no address has a greater one. -/
theorem isGreatest_maxCount (index : AddressIndex) : IsGreatest (Set.range index.count) index.maxCount := by
  -- The greatest count is taken of the claimed addresses, but it is meant of all.
  have hmem : ∀ n, n ∈ index.claimed.map (fun claim => claim.2.length) ↔ ∃ a ps, index.positions? a = some ps ∧ ps.length = n := by
    intro n
    simp only [List.mem_map, Prod.exists, mem_claimed]
  constructor
  · unfold maxCount
    cases h : (index.claimed.map fun claim => claim.2.length).max? with
    | none =>
      -- without claims every count is zero, for instance that of an address beyond the index
      refine ⟨0xFF, ?_⟩
      rw [count, positions, positions?_of_le index (by decide)]
      rfl
    | some n =>
      obtain ⟨a, ps, hps, hlen⟩ := (hmem n).1 (List.max?_eq_some_iff.1 h).1
      refine ⟨a, ?_⟩
      rw [count, positions, hps]
      exact hlen
  · rintro n ⟨a, rfl⟩
    unfold maxCount count positions
    cases h : index.positions? a with
    | none => exact Nat.zero_le _
    | some ps => exact List.le_max?_getD_of_mem ((hmem _).2 ⟨a, ps, h, rfl⟩)

/-- The index of a catalog is refused, with the number of all its device types, exactly when one with addresses stands beyond the
positions that fit. Otherwise every address of the lower half lists each position as often as the device type there lists the
address, in catalog order, and has no list when no device type claims it; the other addresses have none either. -/
theorem build_lists_every_claim (devices : List DeviceType) :
    (∀ f, build devices = .error f ↔
      f = .tooManyTypes devices.length ∧ ∃ p d, devices[p]? = some d ∧ UInt16.size ≤ p ∧ d.addresses ≠ []) ∧
    ∀ index, build devices = .ok index →
      (∀ a ≤ (0x7F : Address),
        (∀ p d, devices[p]? = some d → ((index.positions a).map UInt16.toNat).count p = d.addresses.count a) ∧
        (∀ q ∈ index.positions a, q.toNat < devices.length) ∧
        (index.positions a).Pairwise (· ≤ ·) ∧
        (index.positions? a = none ↔ ∀ d ∈ devices, a ∉ d.addresses)) ∧
      (∀ a, index.positions? a ≠ some []) ∧
      (∀ a > (0x7F : Address), index.positions? a = none) ∧
      (∀ a, index.count a = (index.positions a).length) ∧
      IsGreatest (Set.range index.count) index.maxCount := by
  refine ⟨fun f => ?_, fun index h => ⟨fun a ha => ?_, noneEmpty_of_build h, fun a ha => ?_, fun a => rfl, ?_⟩⟩
  · rw [build_eq_error_iff, exists_overflows]
  · have hclaims : (index.positions a).map UInt16.toNat = claims devices.zipIdx a :=
      map_toNat_positions h (Nat.lt_succ_of_le (UInt8.le_iff_toNat_le.1 ha))
    refine ⟨fun p d hd => ?_, fun q hq => ?_, ?_, ?_⟩
    · rw [hclaims, count_claims hd]
    · refine lt_length_of_mem_claims (a := a) ?_
      rw [← hclaims]
      exact List.mem_map_of_mem hq
    · have hsorted := pairwise_claims devices a
      rw [← hclaims, List.pairwise_map] at hsorted
      exact hsorted.imp fun hle => UInt16.le_iff_toNat_le.2 hle
    · rw [positions?_eq_none_iff (noneEmpty_of_build h), ← List.map_eq_nil_iff, hclaims, claims_eq_nil_iff]
  · exact positions?_of_le index (UInt8.lt_iff_toNat_lt.1 ha)
  · exact isGreatest_maxCount index

/-- Three device types, the middle one without addresses: the first one lists an address twice and one that is not indexed, and
shares the former with the last one. -/
theorem build_shared_address :
    let devices : List DeviceType :=
      [{ key := "A", addresses := [0x10, 0x90, 0x10] }, { key := "B" }, { key := "C", addresses := [0x10, 0x20] }]
    ∃ index, build devices = .ok index ∧ index.positions 0x10 ≠ [] ∧
      ((index.positions 0x10).map UInt16.toNat).count 0 = 2 ∧ ((index.positions 0x10).map UInt16.toNat).count 2 = 1 ∧
      index.positions? 0x11 = none ∧ index.positions? 0x90 = none ∧ index.count 0x10 ≤ index.maxCount := by
  intro devices
  obtain ⟨herror, hok⟩ := build_lists_every_claim devices
  have hlength : devices.length = 3 := rfl
  cases h : build devices with
  | error f =>
    obtain ⟨-, p, d, hget, hp, -⟩ := (herror f).1 h
    have hlt : p < devices.length := (List.getElem?_eq_some_iff.1 hget).1
    have hsize : UInt16.size = 65536 := rfl
    omega
  | ok index =>
    obtain ⟨hlists, -, hbeyond, -, hgreatest⟩ := hok index h
    obtain ⟨hcount, -, -, hnone⟩ := hlists 0x10 (by decide)
    have hfirst : ((index.positions 0x10).map UInt16.toNat).count 0 = 2 := hcount 0 _ rfl
    refine ⟨index, rfl, ?_, hfirst, hcount 2 _ rfl, ?_, hbeyond 0x90 (by decide), hgreatest.2 ⟨0x10, rfl⟩⟩
    · intro hnil
      rw [hnil] at hfirst
      cases hfirst
    · exact (hlists 0x11 (by decide)).2.2.2.2 (by decide)

end AddressIndex

end DeviceCatalog

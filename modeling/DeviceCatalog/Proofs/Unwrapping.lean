import DeviceCatalog.Proofs.Dispatch
import DeviceCatalog.Proofs.NativeFile
import Mathlib.Data.List.Chain

/-!
# Unwrapped timestamps

A poll timestamp counts ticks and starts again from zero after a period. As long as the ticks of two poll results lie less than a period
apart, a timestamp that is less than the one before tells that one period has ended, so the offset in the decode state is always the
periods that have ended (`Unwrapped`). Every call keeps this and gives the ticks since the start (`Unwrapped.step`), and so does any number
of calls (`Unwrapped.callAll`).
-/

namespace DeviceCatalog

open CSource

/-- The type and the value of a constant of a name. -/
def CSource.Item.constantOf? (name : String) : Item → Option (CType × Expr)
  | .constant type n value => if n = name then some (type, value) else none
  | _ => none

/-! ## The period -/

namespace Options

/-- The ticks of a period. -/
def periodTicks (o : Options) : Nat := 2 ^ (8 * o.timestampBytes.toNat)

theorem periodTicks_pos (o : Options) : 0 < o.periodTicks :=
  Nat.pow_pos (by decide)

/-- Valid options have a resolution that is not zero. -/
theorem pollResolution_pos_of_validate {o : Options} (h : o.validate = .ok ()) : 0 < o.pollResolution.toNat := by
  rw [Nat.pos_iff_ne_zero]
  intro hzero
  have hresolution : o.pollResolution = 0 := UInt32.toNat_inj.1 hzero
  rw [validate, check] at h
  split at h <;> cases h

/-- The period in microseconds, which sixty-four bits hold for every accepted format. -/
theorem toNat_wrapPeriod {o : Options} (h : o.validate = .ok ()) :
    o.wrapPeriod.toNat = o.periodTicks * o.pollResolution.toNat ∧ o.periodTicks * o.pollResolution.toNat < 2 ^ 64 := by
  obtain ⟨hpos, hle⟩ := timestampBytes_of_validate h
  have hticks : o.periodTicks ≤ 2 ^ 32 := Nat.pow_le_pow_right (by decide) (by omega)
  have hresolution := o.pollResolution.toNat_lt
  have hlt : o.periodTicks * o.pollResolution.toNat < 2 ^ 64 :=
    Nat.lt_of_le_of_lt (Nat.mul_le_mul_right _ hticks) (by omega)
  have hbits : (8 * o.timestampBytes.toUInt64).toNat = 8 * o.timestampBytes.toNat := by
    rw [UInt64.toNat_mul, UInt32.toNat_toUInt64]
    exact Nat.mod_eq_of_lt (by simp; omega)
  have hshift : ((1 : UInt64) <<< (8 * o.timestampBytes.toUInt64)).toNat = o.periodTicks := by
    rw [UInt64.toNat_shiftLeft, hbits, Nat.mod_eq_of_lt (show 8 * o.timestampBytes.toNat < 64 by omega), Nat.shiftLeft_eq, UInt64.toNat_one,
      Nat.one_mul]
    exact Nat.mod_eq_of_lt (Nat.lt_of_le_of_lt hticks (by decide))
  refine ⟨?_, hlt⟩
  rw [wrapPeriod, UInt64.toNat_mul, hshift, UInt32.toNat_toUInt64, Nat.mod_eq_of_lt hlt]

end Options

namespace Artifact

variable {α : Type} {o : Options}

/-! ## One timestamp -/

section State

variable (t period : UInt64) (mem : Memory α)

@[simp] theorem unwrapState_last : (unwrapState t period mem).state lastMember = t := by
  unfold unwrapState
  split <;> rfl

@[simp] theorem unwrapState_offset : (unwrapState t period mem).state offsetMember =
    if t < mem.state lastMember then mem.state offsetMember + period else mem.state offsetMember := by
  unfold unwrapState
  split <;> rfl

end State

/-- The decode state after some ticks: the timestamp is what they are in their period, the offset is the periods that have ended. -/
structure Unwrapped (o : Options) (ticks : Nat) (mem : Memory α) : Prop where
  last : (mem.state lastMember).toNat = ticks % o.periodTicks * o.pollResolution.toNat
  offset : (mem.state offsetMember).toNat = ticks / o.periodTicks * (o.periodTicks * o.pollResolution.toNat)

/-- Less than a period later, the ticks are in the same period, further on, or in the next one, and there not so far. -/
theorem sameOrNextPeriod {period ticks ticks' : Nat} (hle : ticks ≤ ticks') (hlt : ticks' < ticks + period) :
    (ticks' / period = ticks / period ∧ ticks % period ≤ ticks' % period) ∨
      (ticks' / period = ticks / period + 1 ∧ ticks' % period < ticks % period) := by
  have hpos : 0 < period := by omega
  have hticks := Nat.div_add_mod ticks period
  have hticks' := Nat.div_add_mod ticks' period
  have hrest := Nat.mod_lt ticks hpos
  have hrest' := Nat.mod_lt ticks' hpos
  have hlow : ticks / period ≤ ticks' / period := Nat.div_le_div_right hle
  have hhigh : ticks' / period < ticks / period + 2 := by
    rw [Nat.div_lt_iff_lt_mul hpos, Nat.add_mul, Nat.mul_comm (ticks / period)]
    omega
  rcases Nat.lt_or_ge (ticks / period) (ticks' / period) with hnext | hsame
  · have hone : ticks' / period = ticks / period + 1 := by omega
    rw [hone, Nat.mul_add, Nat.mul_one] at hticks'
    exact Or.inr ⟨hone, by omega⟩
  · have hequal : ticks' / period = ticks / period := by omega
    rw [hequal] at hticks'
    exact Or.inl ⟨hequal, by omega⟩

/-- The ticks since the start are those of the periods that have ended and those of the one that has begun. -/
theorem ticks_eq (ticks period resolution : Nat) :
    ticks % period * resolution + ticks / period * (period * resolution) = ticks * resolution := by
  rw [← Nat.mul_assoc, ← Nat.add_mul, Nat.mul_comm (ticks / period), Nat.mod_add_div]

/-- A timestamp less than a period after the one before keeps the decode state right, and with the offset it is the microseconds since the
start. -/
theorem Unwrapped.step (ho : o.validate = .ok ()) {ticks ticks' : Nat} {mem : Memory α} (h : Unwrapped o ticks mem) (hle : ticks ≤ ticks')
    (hlt : ticks' < ticks + o.periodTicks) (hfit : ticks' * o.pollResolution.toNat < 2 ^ 64) {t : UInt64}
    (ht : t.toNat = ticks' % o.periodTicks * o.pollResolution.toNat) :
    Unwrapped o ticks' (unwrapState t o.wrapPeriod mem) ∧
      (t + (unwrapState t o.wrapPeriod mem).state offsetMember).toNat = ticks' * o.pollResolution.toNat := by
  have hresolution := Options.pollResolution_pos_of_validate ho
  obtain ⟨hperiod, -⟩ := Options.toNat_wrapPeriod ho
  have hsum := ticks_eq ticks' o.periodTicks o.pollResolution.toNat
  have hoffset : ((unwrapState t o.wrapPeriod mem).state offsetMember).toNat =
      ticks' / o.periodTicks * (o.periodTicks * o.pollResolution.toNat) := by
    rw [unwrapState_offset]
    rcases sameOrNextPeriod hle hlt with ⟨hsame, hmod⟩ | ⟨hnext, hmod⟩
    · have hkeeps : ¬ t < mem.state lastMember := by
        rw [UInt64.lt_iff_toNat_lt, ht, h.last, Nat.not_lt]
        exact Nat.mul_le_mul_right _ hmod
      rw [if_neg hkeeps, h.offset, hsame]
    · have hwraps : t < mem.state lastMember := by
        rw [UInt64.lt_iff_toNat_lt, ht, h.last]
        exact Nat.mul_lt_mul_of_pos_right hmod hresolution
      rw [hnext, Nat.add_mul, Nat.one_mul] at hsum ⊢
      rw [if_pos hwraps, UInt64.toNat_add, h.offset, hperiod]
      exact Nat.mod_eq_of_lt (by omega)
  refine ⟨⟨by rw [unwrapState_last, ht], hoffset⟩, ?_⟩
  rw [UInt64.toNat_add, ht, hoffset, hsum]
  exact Nat.mod_eq_of_lt hfit

/-! ## Many timestamps -/

/-- A function called for one position after the other, each in the buffer of a machine of its own; the decode state is handed on. -/
def callAll (run : Machine α → Meaning α) : List (Machine α × Nat) → Memory α → Option (List (Value α) × Memory α)
  | [], mem => some ([], mem)
  | (M, p) :: calls, mem => do
    let (v, mem) ← run M [.bytes p, .state] mem
    let (vs, mem) ← callAll run calls mem
    some (v :: vs, mem)

/-- The bytes at a position are those of a counter that has come to some ticks, the highest byte first. -/
def Shows (o : Options) (call : Machine α × Nat) (ticks : Nat) : Prop :=
  bytesAt call.1 call.2 o.timestampBytes.toNat = ByteOrder.big.bytes o.timestampBytes.toNat (ticks % o.periodTicks)

/-- The ticks do not fall behind and move by less than a period. -/
def Moves (o : Options) (ticks ticks' : Nat) : Prop :=
  ticks ≤ ticks' ∧ ticks' < ticks + o.periodTicks

/-- A poll that shows some ticks holds the time of these ticks within its period. -/
theorem Shows.timestampAt {call : Machine α × Nat} {ticks : Nat} (ho : o.validate = .ok ()) (h : Shows o call ticks) :
    call.2 + o.timestampBytes.toNat ≤ call.1.buffer.length ∧
      (timestampAt call.1 o.timestampBytes.toNat o.pollResolution.toNat call.2).toNat =
        ticks % o.periodTicks * o.pollResolution.toNat := by
  obtain ⟨hpos, -⟩ := Options.timestampBytes_of_validate ho
  have hperiod : o.periodTicks = 256 ^ o.timestampBytes.toNat := Nat.pow_mul 2 8 _
  have hlength := le_length_of_length_bytesAt (by rw [h, ByteOrder.length_bytes]) hpos
  have hnumber : ByteOrder.big.number (bytesAt call.1 call.2 o.timestampBytes.toNat) = ticks % o.periodTicks := by
    rw [h, ByteOrder.number_bytes, ← hperiod, Nat.mod_mod]
  have hfit : ticks % o.periodTicks * o.pollResolution.toNat < 2 ^ 64 :=
    Nat.lt_of_le_of_lt (Nat.mul_le_mul_right _ (Nat.le_of_lt (Nat.mod_lt _ o.periodTicks_pos))) (Options.toNat_wrapPeriod ho).2
  refine ⟨hlength, ?_⟩
  rw [Artifact.timestampAt, hnumber, UInt64.toNat_ofNat_of_lt' hfit]

/-- Called for the timestamps of some ticks in turn, the function gives the microseconds since the start every time. -/
theorem Unwrapped.callAll (ho : o.validate = .ok ()) {run : Machine α → Meaning α}
    (hrun : ∀ M, GivesTimestamp M (run M) o.timestampBytes.toNat o.pollResolution.toNat o.wrapPeriod) {calls : List (Machine α × Nat)}
    {ticks : List Nat} (hcalls : List.Forall₂ (Shows o) calls ticks) {before : Nat} (hmoves : List.IsChain (Moves o) (before :: ticks))
    (hfit : ∀ T ∈ ticks, T * o.pollResolution.toNat < 2 ^ 64) {mem : Memory α} (h : Unwrapped o before mem) :
    ∃ mem', Artifact.callAll run calls mem =
      some (ticks.map fun T => .int .uint64 ((T * o.pollResolution.toNat : Nat) : Int), mem') := by
  induction hcalls generalizing before mem with
  | nil => exact ⟨mem, rfl⟩
  | @cons call T calls ticks hshows hcalls ih =>
    obtain ⟨M, p⟩ := call
    obtain ⟨hin, ht⟩ := hshows.timestampAt ho
    obtain ⟨⟨hle, hlt⟩, hlater⟩ := List.isChain_cons_cons.1 hmoves
    have hcall := hrun M p mem hin
    have hbefore : Unwrapped o before (mem.log (readsFrom p o.timestampBytes.toNat)) := ⟨h.last, h.offset⟩
    obtain ⟨hafter, hresult⟩ := hbefore.step ho hle hlt (hfit T List.mem_cons_self) ht
    obtain ⟨mem', hothers⟩ := ih hlater (fun T' hT' => hfit T' (List.mem_cons_of_mem T hT')) hafter
    refine ⟨mem', (bind_eq_of_eq_some _ hcall).trans ((bind_eq_of_eq_some _ hothers).trans ?_)⟩
    rw [List.map_cons, hresult]

/-! ## The files -/

/-- The header of the records has one constant for the period. -/
theorem constantOf?_pollRecords (m : Model) (o : Options) :
    (pollRecords m o).filterMap (Item.constantOf? "POLL_RESULT_WRAP_US") = [(.uint64, .wide o.wrapPeriod.toNat)] := by
  have hstructs : (if o.decoding then m.records.flatMap (structItems o) else []).filterMap (Item.constantOf? "POLL_RESULT_WRAP_US") = [] := by
    rw [List.filterMap_eq_nil_iff]
    intro item hitem
    split at hitem
    · obtain ⟨r, -, hr⟩ := List.mem_flatMap.1 hitem
      simp only [structItems, List.mem_cons, List.not_mem_nil, or_false] at hr
      rcases hr with rfl | rfl <;> rfl
    · cases hitem
  rw [pollRecords, List.filterMap_append, hstructs, List.append_nil]
  rfl

/-- The function that unwraps timestamps is found in the poll records and the device type table. -/
theorem runFunction_timestampFunction (M : Machine α) (m : Model) (hdecoding : o.decoding = true) (pollRecordsName : String) :
    runFunction M (pollRecords m o ++ deviceTable m o pollRecordsName) timestampFunction =
      meaning M (Scope.ofItems M (nativeFront m o pollRecordsName ++ helpers nativeHelper)) timestampSignature (timestampBody o) := by
  rw [nativeFile_eq_append hdecoding]
  exact runFunction_eq (lookup_timestampFunction _)

/-- Whatever timestamp format is accepted, the period that is written is the ticks of the timestamp's bytes in microseconds, without a carry
out of sixty-four bits. And the function that unwraps timestamps, called for one poll result after the other from an empty decode state,
gives the microseconds since the start every time, however often the counter starts again, as long as its ticks move by less than a period
between two poll results. -/
theorem timestamps_unwrapped (ho : o.validate = .ok ()) (m : Model) :
    o.wrapPeriod.toNat = 2 ^ (8 * o.timestampBytes.toNat) * o.pollResolution.toNat ∧
    2 ^ (8 * o.timestampBytes.toNat) * o.pollResolution.toNat < 2 ^ 64 ∧
    (pollRecords m o).filterMap (Item.constantOf? "POLL_RESULT_WRAP_US") =
      [(.uint64, .wide (2 ^ (8 * o.timestampBytes.toNat) * o.pollResolution.toNat))] ∧
    (o.decoding = true → ∀ (pollRecordsName : String) (ticks : List Nat) (calls : List (Machine α × Nat)) (mem : Memory α),
      mem.state "lastReportTimestampUs" = 0 → mem.state "reportTimestampOffsetUs" = 0 →
      (∀ T ∈ ticks.head?, T < 2 ^ (8 * o.timestampBytes.toNat)) →
      ticks.IsChain (fun T T' => T ≤ T' ∧ T' < T + 2 ^ (8 * o.timestampBytes.toNat)) →
      (∀ T ∈ ticks, T * o.pollResolution.toNat < 2 ^ 64) → List.Forall₂ (Shows o) calls ticks →
      ∃ mem', callAll (fun M => runFunction M (pollRecords m o ++ deviceTable m o pollRecordsName) "devtypes_poll_timestamp_us") calls mem =
        some (ticks.map fun T => .int .uint64 ((T * o.pollResolution.toNat : Nat) : Int), mem')) := by
  obtain ⟨hperiod, hfits⟩ := Options.toNat_wrapPeriod ho
  have hconstant := constantOf?_pollRecords m o
  rw [hperiod] at hconstant
  refine ⟨hperiod, hfits, hconstant, ?_⟩
  intro hdecoding pollRecordsName ticks calls mem hlast hoffset hhead hchain hfit hcalls
  obtain ⟨hpos, hle⟩ := Options.timestampBytes_of_validate ho
  have hrun : ∀ M : Machine α, GivesTimestamp M
      (runFunction M (pollRecords m o ++ deviceTable m o pollRecordsName) "devtypes_poll_timestamp_us") o.timestampBytes.toNat
      o.pollResolution.toNat o.wrapPeriod := by
    intro M
    have hfound := runFunction_timestampFunction M m hdecoding pollRecordsName
    rw [timestampFunction] at hfound
    rw [hfound]
    exact givesTimestamp_nativeFront hpos hle
  -- The empty state is the state after a poll result at tick zero, so the chain begins with zero.
  have hstart : Unwrapped o 0 mem :=
    ⟨by rw [lastMember, hlast, Nat.zero_mod, Nat.zero_mul]; rfl, by rw [offsetMember, hoffset, Nat.zero_div, Nat.zero_mul]; rfl⟩
  have hmoves : List.IsChain (Moves o) (0 :: ticks) := by
    refine List.isChain_cons.2 ⟨fun T hT => ⟨Nat.zero_le T, ?_⟩, hchain⟩
    rw [Nat.zero_add]
    exact hhead T hT
  exact Unwrapped.callAll ho hrun hcalls hmoves hfit hstart

/-- Two bytes count milliseconds: two ticks after the last one of a period, the function has seen that the period has ended. -/
theorem timestamps_unwrapped_two_bytes :
    ∃ m mem', (Model.build []).outcome = .ok m ∧
      callAll (fun M => runFunction M (pollRecords m {} ++ deviceTable m {} "records.h") "devtypes_poll_timestamp_us")
          [(textMachine [255, 255], 0), (textMachine [7, 0, 1], 1)] ⟨fun _ => 0, []⟩ =
        some ([.int .uint64 65535000, .int .uint64 65537000], mem') := by
  obtain ⟨m, hm, -⟩ : ∃ m, (Model.build []).outcome = .ok m ∧ m.records.map Record.device = [] :=
    Model.exists_build (by simp) (by simp [Model.DistinctNames]) (by simp)
  obtain ⟨-, -, -, hruns⟩ := timestamps_unwrapped (α := Unit) (o := {}) rfl m
  have hshows : List.Forall₂ (Shows {}) [(textMachine [255, 255], 0), (textMachine [7, 0, 1], 1)] [65535, 65537] :=
    .cons (by unfold Shows; decide) (.cons (by unfold Shows; decide) .nil)
  have hchain : List.IsChain (fun T T' => T ≤ T' ∧ T' < T + 2 ^ (8 * UInt32.toNat 2)) [65535, 65537] := by decide
  obtain ⟨mem', hcalls⟩ := hruns rfl "records.h" [65535, 65537] _ ⟨fun _ => 0, []⟩ rfl rfl (by decide) hchain (by decide) hshows
  exact ⟨m, mem', hm, hcalls⟩

end Artifact

end DeviceCatalog

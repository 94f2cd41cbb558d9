import DeviceCatalog.Proofs.ComposedText
import DeviceCatalog.Proofs.NativeFile
import DeviceCatalog.Proofs.ScriptFile

/-!
# Extraction undoes the encoding of fields

A number of a storage type is encoded as its two's complement in the bytes of the type, in its byte order. The helper of the type gives the
number back (`GivesField.inverts`), whichever file holds the helpers (`givesField_runFunction`).
-/

namespace DeviceCatalog

open CSource

/-! ## Encodings -/

/-- The numbers that a type has. -/
def CSource.IntType.InRange (t : IntType) (n : Int) : Prop :=
  if t.signed then -(2 ^ (t.bits - 1)) ≤ n ∧ n < 2 ^ (t.bits - 1) else 0 ≤ n ∧ n < 2 ^ t.bits

instance (t : IntType) (n : Int) : Decidable (t.InRange n) :=
  inferInstanceAs (Decidable (if t.signed then -(2 ^ (t.bits - 1)) ≤ n ∧ n < 2 ^ (t.bits - 1) else 0 ≤ n ∧ n < 2 ^ t.bits))

/-- A type keeps a number of its range. -/
theorem CSource.IntType.wrap_of_inRange {t : IntType} (hbits : 0 < t.bits) {n : Int} (h : t.InRange n) : t.wrap n = n := by
  obtain ⟨k, hk⟩ : ∃ k, t.bits = k + 1 := ⟨t.bits - 1, by omega⟩
  have hmodulus : t.modulus = 2 * 2 ^ k := by rw [modulus, hk, Nat.pow_eq, Nat.pow_succ']
  have hcast : ((2 ^ k : Nat) : Int) = 2 ^ k := by push_cast; rfl
  unfold InRange at h
  unfold wrap
  split at h
  · rename_i hsigned
    rw [if_pos hsigned, hmodulus]
    rw [hk, Nat.add_sub_cancel, ← hcast] at h
    exact Int.bmod_eq_of_le (by omega) (by omega)
  · rename_i hsigned
    rw [if_neg hsigned, hmodulus]
    rw [hk, Int.pow_succ, ← hcast] at h
    exact Int.emod_eq_of_lt h.1 (by omega)

/-- A number has the same residue in a type as what is left of it when it is divided by the number of values. -/
theorem CSource.IntType.wrap_emod (t : IntType) (n : Int) : t.wrap (n % t.modulus) = t.wrap n := by
  unfold wrap
  split
  · exact Int.emod_bmod n t.modulus
  · exact Int.emod_emod_of_dvd n (Int.dvd_refl _)

/-- The bytes of a number in a type: its two's complement. -/
def FieldType.encode (t : FieldType) (n : Int) : List UInt8 :=
  (t.order?.getD .little).bytes t.width (n % 256 ^ t.width).toNat

namespace Artifact

variable {α : Type} {M : Machine α}

/-- A stored value has as many values as its bytes. -/
theorem modulus_storedInt (t : FieldType) : (storedInt t).modulus = 256 ^ t.width := by
  cases t <;> rfl

/-- A number of the range is stored as its bytes and read as the number again. -/
theorem storedNumber_encode {t : FieldType} {n : Int} (h : (storedInt t).InRange n) : storedNumber t (t.encode n) = n := by
  have hbits : 0 < (storedInt t).bits := by cases t <;> exact Nat.succ_pos _
  have hmodulus : ((storedInt t).modulus : Int) = 256 ^ t.width := by
    rw [modulus_storedInt]
    exact Nat.cast_pow 256 t.width
  have hpos : (0 : Int) < 256 ^ t.width := Int.pow_pos (by decide)
  have hlow : 0 ≤ n % 256 ^ t.width := Int.emod_nonneg n (Int.ne_of_gt hpos)
  have hhigh : n % 256 ^ t.width < 256 ^ t.width := Int.emod_lt_of_pos n hpos
  have hnumber : (((t.order?.getD .little).number (t.encode n) : Nat) : Int) = n % (storedInt t).modulus := by
    rw [FieldType.encode, ByteOrder.number_bytes, hmodulus, Int.natCast_emod, Int.toNat_of_nonneg hlow, Nat.cast_pow]
    exact Int.emod_eq_of_lt hlow hhigh
  rw [storedNumber, hnumber, IntType.wrap_emod, IntType.wrap_of_inRange hbits h]

/-- Four bytes of a float are its bits. -/
theorem storedNumber_bits (order : ByteOrder) (u : UInt32) : storedNumber (.float32 order) (order.bytes 4 u.toNat) = u.toNat := by
  have hnumber : order.number (order.bytes 4 u.toNat) = u.toNat := by
    rw [ByteOrder.number_bytes]
    exact Nat.mod_eq_of_lt u.toNat_lt
  calc storedNumber (.float32 order) (order.bytes 4 u.toNat)
    _ = IntType.uint32.wrap (order.number (order.bytes 4 u.toNat)) := rfl
    _ = u.toNat := by rw [hnumber, IntType.wrap_natCast rfl u.toNat_lt]

/-- Called for a place of the buffer where a field has some bytes, a function reads these bytes in turn, each once, and gives a value. The places
of the bytes must be numbers of the type of the offset, as they are in every buffer of up to `2 ^ 32` bytes. -/
def ReadsField (M : Machine α) (run : Meaning α) (t : FieldType) (bs : List UInt8) (v : Value α) : Prop :=
  ∀ (p offset : Nat) (k : IntType) mem, offset + t.width ≤ 4294967296 → bytesAt M (p + offset) t.width = bs →
    run [.bytes p, .int k offset] mem = some (v, mem.log (readsFrom (p + offset) t.width))

/-- A function gives back whatever number of an integer type is encoded, and the float that has the encoded bits, given that rounding a float
to its own format leaves it as it is. -/
def InvertsEncoding (M : Machine α) (run : Meaning α) (t : FieldType) : Prop :=
  match t with
  | .float32 order => ∀ u : UInt32, M.round .single (M.ofBits u) = M.ofBits u →
      ReadsField M run t (order.bytes 4 u.toNat) (.real .single (M.ofBits u))
  | t => ∀ n, (storedInt t).InRange n → ReadsField M run t (t.encode n) (.int (storedInt t) n)

/-- A helper that gives a field reads it from a buffer that holds nothing else. -/
theorem GivesField.reads {run : Meaning α} {t : FieldType} (h : GivesField M run t) {bs : List UInt8} (hbs : bs.length = t.width) :
    ReadsField M run t bs (fieldValue M t bs) := by
  intro p offset k mem hfit hbytes
  have hin := le_length_of_length_bytesAt (by rw [hbytes, hbs]) t.width_pos
  rw [h p offset k hfit hin mem, hbytes]

/-- A helper that gives a field inverts its encoding. -/
theorem GivesField.inverts {run : Meaning α} {t : FieldType} (h : GivesField M run t) : InvertsEncoding M run t := by
  have hint : t.isInteger = true → ∀ n, (storedInt t).InRange n → ReadsField M run t (t.encode n) (.int (storedInt t) n) := by
    intro hinteger n hn
    have hvalue : fieldValue M t (t.encode n) = .int (storedInt t) n := by
      rw [fieldValue, if_pos hinteger, storedNumber_encode hn]
    exact hvalue ▸ h.reads (ByteOrder.length_bytes _ _ _)
  cases t with
  | float32 order =>
    intro u hround
    have hbits : UInt32.ofInt (u.toNat : Int) = u := by
      have hmod : ((u.toNat : Int) % 2 ^ 32).toNat = u.toNat := by
        have hu := u.toNat_lt
        omega
      rw [UInt32.ofInt, hmod, UInt32.ofNat_toNat]
    have hfloat : ¬ (FieldType.float32 order).isInteger = true := Bool.false_ne_true
    have hvalue : fieldValue M (.float32 order) (order.bytes 4 u.toNat) = .real .single (M.ofBits u) := by
      rw [fieldValue, if_neg hfloat, storedNumber_bits, hbits, hround]
    exact hvalue ▸ h.reads (ByteOrder.length_bytes _ _ _)
  | _ => exact hint rfl

/-! ## Files -/

/-- A helper run in a file with all helpers behind functions of other names. -/
theorem givesField_runFunction {start : String} {front rest : List Item}
    (hfront : ∀ t, start ++ FieldType.extractor t ∉ front.filterMap Item.function?) (t : FieldType) :
    GivesField M (runFunction M (front ++ helpers start ++ rest) (start ++ t.extractor)) t := by
  obtain ⟨run, hrun⟩ : ∃ run, (Scope.ofItems M (front ++ helpers start ++ rest)).functions.lookup (start ++ t.extractor) = some run := by
    obtain ⟨before, after, hall, hbefore⟩ := List.eq_append_cons_of_mem t.mem_all
    have hhelpers : helpers start = someHelpers start (before ++ t :: after) := by
      rw [← hall]
      rfl
    rw [hhelpers]
    exact ⟨_, lookup_helper hfront hbefore⟩
  have hcall : runFunction M (front ++ helpers start ++ rest) (start ++ t.extractor) =
      (Scope.ofItems M (front ++ helpers start ++ rest)).call M (start ++ t.extractor) := by
    rw [runFunction_eq hrun]
    funext vs mem
    rw [Scope.call, hrun]
  rw [hcall]
  exact givesField_helpers hfront t

/-- The text that puts one to four bytes together is read as an expression with one operand for each byte, in bits of its own, that gives the
number of the bytes in their order, whatever the base is and the buffer holds. Therefore a helper gives back every number of its type whose
encoding it is called for, and every float whose bits it is called for, in any file that has the helpers behind functions of other names, and so
in both that are emitted. -/
theorem extraction_inverts_encoding (M : Machine α) :
    (∀ (width : Nat) (order : ByteOrder) (base : Option String) (place : Option Expr), 0 < width → width ≤ 4 → ReadsAsBase base place →
      ∃ e, Expr.read? (composeBytes width base order).text = some e ∧
        ∀ (scope : Scope α) (ls : List (Local α)) (p q : Nat) (start : Int) (es : List (Event α)), scope.variable ls "pBuf" = .bytes p →
          BaseGives M scope ls place width start es → (q : Int) = p + start → q + width ≤ M.buffer.length →
            JoinsBytes M scope ls width order q es e) ∧
    (∀ (start : String) (front rest : List Item), (∀ t, start ++ FieldType.extractor t ∉ front.filterMap Item.function?) →
      ∀ t, InvertsEncoding M (runFunction M (front ++ helpers start ++ rest) (start ++ t.extractor)) t) ∧
    (∀ (m : Model) (o : Options) (pollRecordsName : String), o.decoding = true →
      ∀ t, InvertsEncoding M (runFunction M (pollRecords m o ++ deviceTable m o pollRecordsName) (nativeHelper ++ t.extractor)) t) ∧
    ∀ (b : Bindings) (headerName pollRecordsName : String) (t : FieldType),
      InvertsEncoding M (runFunction M (b.decoderSource headerName pollRecordsName) (scriptHelper ++ t.extractor)) t := by
  have hfiles : ∀ (start : String) (front rest : List Item), (∀ t, start ++ FieldType.extractor t ∉ front.filterMap Item.function?) →
      ∀ t, InvertsEncoding M (runFunction M (front ++ helpers start ++ rest) (start ++ t.extractor)) t :=
    fun start front rest hfront t => (givesField_runFunction hfront t).inverts
  refine ⟨fun width order base place hpos hwidth hbase => ⟨_, read?_composeBytes hbase width order hpos, ?_⟩, hfiles, ?_, ?_⟩
  · intro scope ls p q start es hbuf hplace hq hin
    exact joinsBytes_composedTerms order hbuf hplace hq hpos hwidth hin
  · intro m o pollRecordsName hdecoding t
    rw [nativeFile_eq_append hdecoding]
    exact hfiles nativeHelper _ _ (fun t => by rw [functions_nativeFront]; exact List.not_mem_nil) t
  · intro b headerName pollRecordsName t
    rw [decoderSource_eq_append, scriptBefore, scriptStart, List.append_assoc (scriptFront headerName pollRecordsName ++ helpers scriptHelper)]
    exact hfiles scriptHelper _ _ (fun _ => List.not_mem_nil) t

/-- A machine whose floats are their bits. -/
def bitsMachine (buffer : List UInt8) : Machine UInt32 where
  buffer := buffer
  sizeBits := 64
  le_sizeBits := by decide
  sizeOf _ := 4
  sizeOf_pos _ := by decide
  sizeOf_lt _ := by decide
  ofBits u := u
  literal _ _ := .ofNat 0
  ofInt _ n := .ofInt n
  round _ u := u
  truncate? _ := none
  add _ u _ := u
  sub _ u _ := u
  mul _ u _ := u
  div _ u _ := u
  external function _ := .foreign function

/-- Three bytes behind a sum, an unsigned number, a negative one and a float. -/
theorem extraction_inverts_encoding_instances :
    let M := bitsMachine [7, 255, 51, 65, 32, 0, 0]
    let mem : Memory UInt32 := ⟨fun _ => 0, []⟩
    let ls : List (Local UInt32) := [⟨"pBuf", .pointer (.const .uint8), .bytes 0⟩, ⟨"i", .uint32, .int .uint32 1⟩]
    (∃ e, Expr.read? "((uint32_t)pBuf[2 * i + 1] << 16) | ((uint32_t)pBuf[2 * i + 1 + 1] << 8) | pBuf[2 * i + 1 + 2]" = some e ∧
      JoinsBytes M {} ls 3 .big 3 [] e) ∧
    runFunction M (helpers "get_") "get_le_uint16" [.bytes 1, .int .int 2] mem = some (.int .uint16 8257, mem.log [.read 3, .read 4]) ∧
    (∃ m, (Model.build []).outcome = .ok m ∧
      runFunction M (pollRecords m {} ++ deviceTable m {} "records.h") "devtypes_get_be_int16" [.bytes 0, .int .int 1] mem =
        some (.int ⟨true, 16⟩ (-205), mem.log [.read 1, .read 2])) ∧
    runFunction M (Bindings.decoderSource ⟨[], [], {}⟩ "decoders.h" "records.h") "mp_get_be_float32" [.bytes 3, .int .uint32 0] mem =
      some (.real .single 0x41200000, mem.log [.read 3, .read 4, .read 5, .read 6]) := by
  intro M mem ls
  obtain ⟨htext, hhelpers, hnative, hscript⟩ := extraction_inverts_encoding M
  refine ⟨?_, ?_, ?_, ?_⟩
  · let sum : Expr := .binary .add (.binary .mul (.decimal 2) (.var "i")) (.decimal 1)
    have hgrouped : WellGrouped sum :=
      .binary (by decide) (by decide) (.binary (by decide) (by decide) (.decimal 2) (.var (isIdentifier_iff.2 (by decide)) (by decide))) (.decimal 1)
    have hbase : ReadsAsBase (some "2 * i + 1") (some sum) := ⟨hgrouped.read?_text, by decide⟩
    have hplace : BaseGives M {} ls (some sum) 3 3 [] := ⟨.uint32, gives_of_eval fun _ => rfl, by decide⟩
    obtain ⟨e, hread, hjoins⟩ := htext 3 .big _ _ (by decide) (by decide) hbase
    exact ⟨e, hread, hjoins {} ls 0 3 3 [] rfl hplace rfl (by decide)⟩
  · exact hhelpers "get_" [] [] (fun _ => List.not_mem_nil) (.uint16 .little) 8257 (by decide) 1 2 .int mem (by decide) (by decide)
  · obtain ⟨m, hm, -⟩ : ∃ m, (Model.build []).outcome = .ok m ∧ m.records.map Record.device = [] :=
      Model.exists_build (by simp) (by simp [Model.DistinctNames]) (by simp)
    exact ⟨m, hm, hnative m {} "records.h" rfl (.int16 .big) (-205) (by decide) 0 1 .int mem (by decide) (by decide)⟩
  · exact hscript ⟨[], [], {}⟩ "decoders.h" "records.h" (.float32 .big) 0x41200000 rfl 3 0 .uint32 mem (by decide) (by decide)

end Artifact

end DeviceCatalog

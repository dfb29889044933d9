import AerospikeNode.Rec.Bins
import AerospikeNode.Rec.Key

/-!
# Strings in sized buffers

The converters that copy a string into a buffer of their own: `udfargs_from_jsobject`,
`privileges_from_jsarray`, `bins_from_jsarray`, `host_from_jsobject`, `datacenter_from_jsobject` and
`get_optional_report_dir_property` of `src/main/util/conversions.cc`, the set-up of queries and scans, and the info
commands. The sizes are constants, or taken from the length in UTF-16 units, while what is copied is UTF-8.

`copied_whole_iff` says for which strings each of them keeps the whole text within its buffers.
-/

namespace AerospikeNode

/-- A buffer, with the bytes written from its start on. -/
structure Buffer where
  capacity : ℕ
  written : Bytes
deriving DecidableEq

/-- What a converter makes of a string: its verdict, and the buffers it has written to. -/
structure Copied where
  accepted : Bool
  buffers : List Buffer
deriving DecidableEq

/-- The buffer holds the text of the string with its NUL. -/
def Buffer.Holds (b : Buffer) (s : JsString) : Prop := 0 ∈ b.written ∧ JsString.cstr b.written = s.utf8

instance (b : Buffer) (s : JsString) : Decidable (b.Holds s) := inferInstanceAs (Decidable (_ ∧ _))

structure Copied.Whole (c : Copied) (s : JsString) : Prop where
  holds : c.accepted = true → ∀ b ∈ c.buffers, b.Holds s
  inside : c.accepted = true → ∀ b ∈ c.buffers, b.written.length ≤ b.capacity
  rejects : ∀ b ∈ c.buffers, b.capacity < s.utf8.length + 1 → c.accepted = false

/-! ### The copies -/

def HOST_ADDRESS_SIZE : ℕ := 50
def INFO_REQUEST_LEN : ℕ := 50
def MAX_INFO_REQUEST_LEN : ℕ := 256

/-- `strncpy` of the C library: it fills up with NULs, and writes none behind a text of `n` bytes or more. -/
def strncpy (s : Bytes) (n : ℕ) : Bytes := s.take n ++ List.replicate (n - s.length) 0

/-- `as_strncpy` of the C client, of which the code relies on a text cut to the size and its NUL. -/
structure Terminates (asStrncpy : Bytes → ℕ → Bytes) : Prop where
  ends : ∀ s n, 0 < n → 0 ∈ asStrncpy s n
  text : ∀ s n, 0 < n → 0 ∉ s → JsString.cstr (asStrncpy s n) = s.take (n - 1)
  inside : ∀ s n, 0 < n → (asStrncpy s n).length ≤ n

/-- The buffer that `as_strlcpy` writes, told that it has `bufsize` bytes. -/
def strlcpyTo (capacity : ℕ) (s : JsString) (bufsize : ℕ) : Buffer :=
  ⟨capacity, (strlcpy (nativeStr s) bufsize).1 ++ [0]⟩

/-- The test `as_strlcpy(..) > bufsize`. -/
def tooLong (s : JsString) (bufsize : ℕ) : Bool := decide (bufsize < (strlcpy (nativeStr s) bufsize).2)

/-- A name of `udfargs_from_jsobject`. The size is that of the string, also where the caller has given a
buffer. -/
def udfName (given : Option ℕ) (s : JsString) : Copied :=
  let size := s.length + 1
  ⟨!tooLong s size, [strlcpyTo (given.getD size) s size]⟩

/-- `apply_async.cc`, `batch_apply.cc` and `conversions_batch.cc` give no buffer. -/
def udfModule (s : JsString) : Copied := udfName none s
def udfFuncname (s : JsString) : Copied := udfName none s

/-- `setup_options` of `query.cc` and `scan.cc` gives `char module[255]` and `char func[255]`. -/
def streamUdfModule (s : JsString) : Copied := udfName (some 255) s
def streamUdfFuncname (s : JsString) : Copied := udfName (some 255) s

/-- A string of `bufsize` bytes at most, copied into a buffer of that size. -/
def checkedCopy (bufsize : ℕ) (s : JsString) : Copied := ⟨!tooLong s bufsize, [strlcpyTo bufsize s bufsize]⟩

/-- A string copied into a buffer with no check, or with one that is only logged. -/
def uncheckedCopy (bufsize : ℕ) (s : JsString) : Copied := ⟨true, [strlcpyTo bufsize s bufsize]⟩

def infoForeachRequest (s : JsString) : Copied := checkedCopy INFO_REQUEST_LEN s
def infoAnyRequest (s : JsString) : Copied := checkedCopy MAX_INFO_REQUEST_LEN s
def infoHostRequest (s : JsString) : Copied := checkedCopy MAX_INFO_REQUEST_LEN s
def infoNodeRequest (s : JsString) : Copied := checkedCopy MAX_INFO_REQUEST_LEN s

/-- `setup_query` and `setup_query_pages` -/
def queryNamespace (s : JsString) : Copied := uncheckedCopy AS_NAMESPACE_MAX_SIZE s
def querySet (s : JsString) : Copied := uncheckedCopy AS_SET_MAX_SIZE s

/-- `setup_scan` and `setup_scan_pages` -/
def scanNamespace (s : JsString) : Copied := uncheckedCopy AS_NAMESPACE_MAX_SIZE s
def scanSet (s : JsString) : Copied := uncheckedCopy AS_SET_MAX_SIZE s

/-- `bins_from_jsarray` -/
def binName (s : JsString) : Copied := uncheckedCopy AS_BIN_NAME_MAX_SIZE s

/-- `host_from_jsobject` -/
def hostAddr (s : JsString) : Copied :=
  let n := if s.length + 1 < HOST_ADDRESS_SIZE then s.length + 1 else HOST_ADDRESS_SIZE
  ⟨true, [⟨HOST_ADDRESS_SIZE, strncpy (nativeStr s) n⟩]⟩

/-- `datacenter_from_jsobject`, which sets the byte behind the copy to NUL. -/
def datacenter (s : JsString) : Copied :=
  let dataCenterMaxSize := if s.length < 31 then s.length else 31
  let n := if s.length < dataCenterMaxSize then s.length else dataCenterMaxSize
  ⟨true, [⟨dataCenterMaxSize + 1, strncpy (nativeStr s) n ++ [0]⟩]⟩

section
variable (asStrncpy : Bytes → ℕ → Bytes)

/-- A name of `privileges_from_jsarray`: it goes through an array of the same size. -/
def privilegeCopy (size : ℕ) (s : JsString) : Copied :=
  ⟨!tooLong s size, [strlcpyTo size s size, ⟨size, asStrncpy (strlcpy (nativeStr s) size).1 size⟩]⟩

def privilegeNamespace (s : JsString) : Copied := privilegeCopy asStrncpy AS_NAMESPACE_MAX_SIZE s
def privilegeSet (s : JsString) : Copied := privilegeCopy asStrncpy AS_SET_MAX_SIZE s

/-- `get_optional_report_dir_property` -/
def reportDir (s : JsString) : Copied :=
  if 256 < s.length + 1 then ⟨false, []⟩
  else if s.length ≤ 0 then ⟨false, []⟩
  else
    let size := s.length + 1
    ⟨true, [⟨size, asStrncpy (nativeStr s) size⟩]⟩

inductive Converter where
  | udfModule | udfFuncname | streamUdfModule | streamUdfFuncname
  | privilegeNamespace | privilegeSet
  | queryNamespace | querySet | scanNamespace | scanSet
  | binName
  | infoForeach | infoAny | infoHost | infoNode
  | hostAddr | datacenter | reportDir
deriving DecidableEq

def Converter.copy : Converter → JsString → Copied
  | udfModule, s => AerospikeNode.udfModule s
  | udfFuncname, s => AerospikeNode.udfFuncname s
  | streamUdfModule, s => AerospikeNode.streamUdfModule s
  | streamUdfFuncname, s => AerospikeNode.streamUdfFuncname s
  | privilegeNamespace, s => AerospikeNode.privilegeNamespace asStrncpy s
  | privilegeSet, s => AerospikeNode.privilegeSet asStrncpy s
  | queryNamespace, s => AerospikeNode.queryNamespace s
  | querySet, s => AerospikeNode.querySet s
  | scanNamespace, s => AerospikeNode.scanNamespace s
  | scanSet, s => AerospikeNode.scanSet s
  | binName, s => AerospikeNode.binName s
  | infoForeach, s => infoForeachRequest s
  | infoAny, s => infoAnyRequest s
  | infoHost, s => infoHostRequest s
  | infoNode, s => infoNodeRequest s
  | hostAddr, s => AerospikeNode.hostAddr s
  | datacenter, s => AerospikeNode.datacenter s
  | reportDir, s => AerospikeNode.reportDir asStrncpy s

end

/-! ### The strings that they keep whole -/

/-- The text that a reader of a `char *` sees has `n` bytes at most, and is the whole text. -/
def FitsIn (n : ℕ) (s : JsString) : Prop := 0 ∉ s.utf8 ∧ s.utf8.length ≤ n

instance (n : ℕ) (s : JsString) : Decidable (FitsIn n s) := inferInstanceAs (Decidable (_ ∧ _))

/-- The strings of which a converter keeps the whole text, or which it rejects. -/
def Converter.Keeps : Converter → JsString → Prop
  | udfModule, s | udfFuncname, s => s.length + 1 < (nativeStr s).length ∨ FitsIn s.length s
  | streamUdfModule, s | streamUdfFuncname, s =>
    s.length + 1 < (nativeStr s).length ∨ FitsIn s.length s ∧ s.utf8.length < 255
  | privilegeNamespace, s => 32 < (nativeStr s).length ∨ FitsIn 31 s
  | privilegeSet, s => 64 < (nativeStr s).length ∨ FitsIn 63 s
  | queryNamespace, s | scanNamespace, s => FitsIn 31 s
  | querySet, s | scanSet, s => FitsIn 63 s
  | binName, s => FitsIn 15 s
  | infoForeach, s => 50 < (nativeStr s).length ∨ FitsIn 49 s
  | infoAny, s | infoHost, s | infoNode, s => 256 < (nativeStr s).length ∨ FitsIn 255 s
  | hostAddr, s => FitsIn s.length s ∧ s.utf8.length < 50
  | datacenter, s => FitsIn s.length s ∧ s.utf8.length ≤ 31
  | reportDir, s => s.length = 0 ∨ 255 < s.length ∨ FitsIn s.length s

section
variable {s : JsString} {t : Bytes} {n size capacity : ℕ}

theorem length_nativeStr_le : (nativeStr s).length ≤ s.utf8.length :=
  (List.takeWhile_prefix _).length_le

/-- The first bytes of the C string are the whole text. -/
theorem take_nativeStr : (nativeStr s).take n = s.utf8 ↔ FitsIn n s := by
  constructor
  · intro h
    have h0 : 0 ∉ s.utf8 := fun h0 => by
      rw [← h] at h0
      exact JsString.zero_not_mem_cstr _ (List.mem_of_mem_take h0)
    have hlen : s.utf8.length ≤ n := by
      rw [← h, List.length_take]
      exact Nat.min_le_left _ _
    exact ⟨h0, hlen⟩
  · rintro ⟨h0, hlen⟩
    rw [nativeStr, JsString.cstr_eq_self.2 h0]
    exact List.take_of_length_le hlen

/-- NULs behind a text end it, and are no part of it. -/
theorem holds_padded (h0 : 0 ∉ t) (k : ℕ) :
    (Buffer.mk capacity (t ++ List.replicate (k + 1) 0)).Holds s ↔ t = s.utf8 := by
  have hcstr : JsString.cstr (t ++ List.replicate (k + 1) 0) = t := by
    rw [JsString.cstr_append h0]
    exact List.append_nil t
  unfold Buffer.Holds
  rw [hcstr]
  constructor
  · rintro ⟨-, h⟩
    exact h
  · intro h
    exact ⟨List.mem_append_right t (List.mem_replicate.2 ⟨Nat.succ_ne_zero k, rfl⟩), h⟩

theorem strlcpy_fst (hsize : 0 < size) (t : Bytes) : (strlcpy t size).1 = t.take (size - 1) := by
  unfold strlcpy
  split_ifs with hle
  · rfl
  · have hlen : t.length ≤ size - 1 := by omega
    exact (List.take_of_length_le hlen).symm

theorem zero_notMem_strlcpy (hsize : 0 < size) : 0 ∉ (strlcpy (nativeStr s) size).1 := by
  rw [strlcpy_fst hsize]
  intro h0
  exact JsString.zero_not_mem_cstr _ (List.mem_of_mem_take h0)

theorem holds_strlcpyTo (hsize : 0 < size) : (strlcpyTo capacity s size).Holds s ↔ FitsIn (size - 1) s := by
  unfold strlcpyTo
  refine (holds_padded (zero_notMem_strlcpy hsize) 0).trans ?_
  rw [strlcpy_fst hsize]
  exact take_nativeStr

theorem length_strlcpyTo (hsize : 0 < size) :
    (strlcpyTo capacity s size).written.length = min (size - 1) (nativeStr s).length + 1 := by
  unfold strlcpyTo
  rw [List.length_append, strlcpy_fst hsize, List.length_take]
  rfl

theorem tooLong_eq_false : tooLong s size = false ↔ (nativeStr s).length ≤ size := by
  unfold tooLong
  rw [decide_eq_false_iff_not]
  exact Nat.not_lt

theorem zero_notMem_take (s : JsString) (n : ℕ) : 0 ∉ (nativeStr s).take n := fun h0 =>
  JsString.zero_not_mem_cstr _ (List.mem_of_mem_take h0)

/-- `strncpy` leaves a C string only where the text is shorter than the count. -/
theorem holds_strncpy :
    (Buffer.mk capacity (strncpy (nativeStr s) n)).Holds s ↔ 0 ∉ s.utf8 ∧ s.utf8.length < n := by
  unfold strncpy
  by_cases hlt : (nativeStr s).length < n
  · obtain ⟨k, hk⟩ : ∃ k, n - (nativeStr s).length = k + 1 := ⟨n - (nativeStr s).length - 1, by omega⟩
    rw [hk, holds_padded (zero_notMem_take s n), take_nativeStr]
    constructor
    · rintro ⟨h0, -⟩
      have hself : nativeStr s = s.utf8 := JsString.cstr_eq_self.2 h0
      rw [hself] at hlt
      exact ⟨h0, hlt⟩
    · rintro ⟨h0, hshort⟩
      exact ⟨h0, hshort.le⟩
  · have hnone : n - (nativeStr s).length = 0 := by omega
    rw [hnone, List.replicate_zero, List.append_nil]
    constructor
    · rintro ⟨h0, -⟩
      exact absurd h0 (zero_notMem_take s n)
    · rintro ⟨-, hshort⟩
      have := length_nativeStr_le (s := s)
      omega

theorem length_strncpy : (strncpy t n).length = n := by
  unfold strncpy
  rw [List.length_append, List.length_take, List.length_replicate]
  omega

theorem holds_strncpy_terminated :
    (Buffer.mk capacity (strncpy (nativeStr s) n ++ [0])).Holds s ↔ FitsIn n s := by
  have hzeros : strncpy (nativeStr s) n ++ [0] =
      (nativeStr s).take n ++ List.replicate (n - (nativeStr s).length + 1) 0 := by
    unfold strncpy
    rw [List.append_assoc, List.replicate_succ']
  rw [hzeros, holds_padded (zero_notMem_take s n)]
  exact take_nativeStr

theorem Terminates.holds {asStrncpy : Bytes → ℕ → Bytes} (hc : Terminates asStrncpy) (hn : 0 < n) (h0 : 0 ∉ t) :
    (Buffer.mk capacity (asStrncpy t n)).Holds s ↔ t.take (n - 1) = s.utf8 := by
  unfold Buffer.Holds
  rw [hc.text t n hn h0]
  constructor
  · rintro ⟨-, h⟩
    exact h
  · intro h
    exact ⟨hc.ends t n hn, h⟩

/-! ### Verdicts -/

theorem Buffer.Holds.length_lt {b : Buffer} (h : b.Holds s) : s.utf8.length < b.written.length := by
  obtain ⟨h0, htext⟩ := h
  have hprefix : JsString.cstr b.written <+: b.written := List.takeWhile_prefix _
  rw [← htext]
  refine lt_of_le_of_ne hprefix.length_le fun hlen => ?_
  have hself := hprefix.eq_of_length hlen
  exact JsString.cstr_eq_self.1 hself h0

theorem Copied.whole_iff {c : Copied} : c.Whole s ↔
    (c.accepted = true → ∀ b ∈ c.buffers, b.Holds s ∧ b.written.length ≤ b.capacity) := by
  constructor
  · rintro ⟨hholds, hinside, -⟩ hok b hb
    exact ⟨hholds hok b hb, hinside hok b hb⟩
  · intro h
    refine ⟨fun hok b hb => (h hok b hb).1, fun hok b hb => (h hok b hb).2, fun b hb hshort => ?_⟩
    by_contra hok
    obtain ⟨hholds, hinside⟩ := h (Bool.eq_true_of_not_eq_false hok) b hb
    have := hholds.length_lt
    omega

theorem whole_singleton {a : Bool} {b : Buffer} : (Copied.mk a [b]).Whole s ↔
    (a = true → b.Holds s ∧ b.written.length ≤ b.capacity) := by
  rw [Copied.whole_iff]
  constructor
  · intro h ha
    exact h ha b (List.mem_singleton.2 rfl)
  · intro h ha x hx
    rw [List.mem_singleton] at hx
    subst hx
    exact h ha

theorem not_tooLong_imp {P : Prop} :
    ((!tooLong s size) = true → P) ↔ size < (nativeStr s).length ∨ ((nativeStr s).length ≤ size ∧ P) := by
  rw [Bool.not_eq_true', tooLong_eq_false]
  by_cases hle : (nativeStr s).length ≤ size
  · constructor
    · intro h
      exact .inr ⟨hle, h hle⟩
    · rintro (hlt | ⟨-, hp⟩) _
      · omega
      · exact hp
  · constructor
    · intro _
      exact .inl (Nat.lt_of_not_le hle)
    · intro _ h
      exact absurd h hle

theorem FitsIn.length_nativeStr (h : FitsIn n s) : (nativeStr s).length ≤ n := length_nativeStr_le.trans h.2

theorem uncheckedCopy_whole (hsize : 0 < size) : (uncheckedCopy size s).Whole s ↔ FitsIn (size - 1) s := by
  unfold uncheckedCopy
  rw [whole_singleton, holds_strlcpyTo hsize]
  constructor
  · intro h
    exact (h rfl).1
  · intro h _
    refine ⟨h, ?_⟩
    rw [length_strlcpyTo hsize]
    show _ ≤ size
    omega

theorem checkedCopy_whole (hsize : 0 < size) :
    (checkedCopy size s).Whole s ↔ size < (nativeStr s).length ∨ FitsIn (size - 1) s := by
  unfold checkedCopy
  rw [whole_singleton, not_tooLong_imp, holds_strlcpyTo hsize]
  refine or_congr_right ⟨fun h => h.2.1, fun h => ⟨?_, h, ?_⟩⟩
  · have := h.length_nativeStr
    omega
  · rw [length_strlcpyTo hsize]
    show _ ≤ size
    omega

theorem udfName_whole {given : Option ℕ} : (udfName given s).Whole s ↔
    s.length + 1 < (nativeStr s).length ∨ FitsIn s.length s ∧ s.utf8.length < given.getD (s.length + 1) := by
  have hsize : 0 < s.length + 1 := Nat.succ_pos _
  unfold udfName
  rw [whole_singleton, not_tooLong_imp, holds_strlcpyTo hsize, length_strlcpyTo hsize]
  refine or_congr_right ?_
  show _ ∧ FitsIn s.length s ∧ min s.length (nativeStr s).length + 1 ≤ given.getD (s.length + 1) ↔ _
  constructor
  · rintro ⟨-, hfits, hroom⟩
    refine ⟨hfits, ?_⟩
    have hself : nativeStr s = s.utf8 := JsString.cstr_eq_self.2 hfits.1
    rw [hself] at hroom
    have := hfits.2
    omega
  · rintro ⟨hfits, hroom⟩
    have := hfits.length_nativeStr
    have := length_nativeStr_le (s := s)
    exact ⟨by omega, hfits, by omega⟩

theorem privilegeCopy_whole {asStrncpy : Bytes → ℕ → Bytes} (hc : Terminates asStrncpy) (hsize : 0 < size) :
    (privilegeCopy asStrncpy size s).Whole s ↔ size < (nativeStr s).length ∨ FitsIn (size - 1) s := by
  have hz := zero_notMem_strlcpy (s := s) hsize
  have hfinal : (Buffer.mk size (asStrncpy (strlcpy (nativeStr s) size).1 size)).Holds s ↔ FitsIn (size - 1) s := by
    rw [hc.holds hsize hz, strlcpy_fst hsize, List.take_take, Nat.min_self]
    exact take_nativeStr
  unfold privilegeCopy
  rw [Copied.whole_iff]
  show ((!tooLong s size) = true → _) ↔ _
  rw [not_tooLong_imp]
  refine or_congr_right ⟨?_, fun h => ⟨?_, ?_⟩⟩
  · rintro ⟨-, h⟩
    exact hfinal.1 (h _ (List.mem_cons_of_mem _ (List.mem_singleton.2 rfl))).1
  · have := h.length_nativeStr
    omega
  · intro b hb
    rcases List.mem_cons.1 hb with rfl | hb
    · refine ⟨(holds_strlcpyTo hsize).2 h, ?_⟩
      rw [length_strlcpyTo hsize]
      show _ ≤ size
      omega
    · rw [List.mem_singleton] at hb
      subst hb
      exact ⟨hfinal.2 h, hc.inside _ _ hsize⟩

theorem hostAddr_whole : (hostAddr s).Whole s ↔ FitsIn s.length s ∧ s.utf8.length < 50 := by
  have hcount : (if s.length + 1 < HOST_ADDRESS_SIZE then s.length + 1 else HOST_ADDRESS_SIZE) =
      min (s.length + 1) 50 := by
    unfold HOST_ADDRESS_SIZE
    split_ifs with h <;> omega
  unfold hostAddr
  rw [whole_singleton, holds_strncpy, length_strncpy, hcount]
  unfold HOST_ADDRESS_SIZE
  constructor
  · intro h
    obtain ⟨⟨h0, hshort⟩, -⟩ := h rfl
    exact ⟨⟨h0, by omega⟩, by omega⟩
  · rintro ⟨⟨h0, hlen⟩, hshort⟩ -
    exact ⟨⟨h0, by omega⟩, Nat.min_le_right _ _⟩

theorem datacenter_whole : (datacenter s).Whole s ↔ FitsIn s.length s ∧ s.utf8.length ≤ 31 := by
  have hsize : (if s.length < 31 then s.length else 31) = min s.length 31 := by
    split_ifs with h <;> omega
  have hcount : (if s.length < min s.length 31 then s.length else min s.length 31) = min s.length 31 :=
    if_neg (Nat.not_lt.2 (Nat.min_le_left _ _))
  unfold datacenter
  dsimp only
  rw [hsize, hcount, whole_singleton, holds_strncpy_terminated, List.length_append, length_strncpy,
    List.length_singleton]
  constructor
  · intro h
    obtain ⟨⟨h0, hlen⟩, -⟩ := h rfl
    exact ⟨⟨h0, by omega⟩, by omega⟩
  · rintro ⟨⟨h0, hlen⟩, hshort⟩ -
    exact ⟨⟨h0, by omega⟩, le_refl _⟩

theorem rejected_whole : (Copied.mk false []).Whole s := by
  rw [Copied.whole_iff]
  intro h
  cases h

theorem reportDir_whole {asStrncpy : Bytes → ℕ → Bytes} (hc : Terminates asStrncpy) :
    (reportDir asStrncpy s).Whole s ↔ s.length = 0 ∨ 255 < s.length ∨ FitsIn s.length s := by
  have hsize : 0 < s.length + 1 := Nat.succ_pos _
  have hz : 0 ∉ nativeStr s := JsString.zero_not_mem_cstr _
  unfold reportDir
  split_ifs with hlong hempty
  · exact iff_of_true rejected_whole (.inr (.inl (by omega)))
  · exact iff_of_true rejected_whole (.inl (by omega))
  · rw [whole_singleton, hc.holds hsize hz, Nat.add_sub_cancel, take_nativeStr]
    constructor
    · intro h
      exact .inr (.inr (h rfl).1)
    · rintro (hnone | hover | hfits) _
      · omega
      · omega
      · exact ⟨hfits, hc.inside _ _ hsize⟩

/-- A converter keeps the whole text of every string that it accepts, and that within its buffers, exactly
for the strings of `Keeps`. -/
theorem copied_whole_iff (asStrncpy : Bytes → ℕ → Bytes) (hc : Terminates asStrncpy) (converter : Converter)
    (s : JsString) : (converter.copy asStrncpy s).Whole s ↔ converter.Keeps s := by
  have hheap : (udfName none s).Whole s ↔ s.length + 1 < (nativeStr s).length ∨ FitsIn s.length s := by
    rw [udfName_whole]
    refine or_congr_right ⟨fun h => h.1, fun h => ⟨h, ?_⟩⟩
    have := h.2
    show s.utf8.length < s.length + 1
    omega
  cases converter with
  | udfModule => exact hheap
  | udfFuncname => exact hheap
  | streamUdfModule => exact udfName_whole
  | streamUdfFuncname => exact udfName_whole
  | privilegeNamespace => exact privilegeCopy_whole hc (by decide)
  | privilegeSet => exact privilegeCopy_whole hc (by decide)
  | queryNamespace => exact uncheckedCopy_whole (by decide)
  | querySet => exact uncheckedCopy_whole (by decide)
  | scanNamespace => exact uncheckedCopy_whole (by decide)
  | scanSet => exact uncheckedCopy_whole (by decide)
  | binName => exact uncheckedCopy_whole (by decide)
  | infoForeach => exact checkedCopy_whole (by decide)
  | infoAny => exact checkedCopy_whole (by decide)
  | infoHost => exact checkedCopy_whole (by decide)
  | infoNode => exact checkedCopy_whole (by decide)
  | hostAddr => exact hostAddr_whole
  | datacenter => exact datacenter_whole
  | reportDir => exact reportDir_whole hc

end

/-- `as_strncpy` on a C string. -/
def cutAndEnd (s : Bytes) (n : ℕ) : Bytes := (JsString.cstr s).take (n - 1) ++ [0]

theorem cutAndEnd_terminates : Terminates cutAndEnd where
  ends s n _ := List.mem_append_right _ (List.mem_singleton.2 rfl)
  text s n _ h0 := by
    have hz : 0 ∉ s.take (n - 1) := fun h => h0 (List.mem_of_mem_take h)
    unfold cutAndEnd
    rw [JsString.cstr_eq_self.2 h0, JsString.cstr_append hz]
    exact List.append_nil _
  inside s n hn := by
    unfold cutAndEnd
    rw [List.length_append, List.length_take, List.length_singleton]
    omega

/-- The privilege namespace `test` is kept whole. -/
theorem test_namespace_whole :
    (Converter.privilegeNamespace.copy cutAndEnd (JsString.lit "test")).Whole (JsString.lit "test") :=
  (copied_whole_iff cutAndEnd cutAndEnd_terminates .privilegeNamespace (JsString.lit "test")).2
    (.inr (by decide : FitsIn 31 (JsString.lit "test")))

/-- The UDF module `é` is accepted: of its two bytes the first one is kept. -/
theorem accented_module_cut : ¬ ∀ (asStrncpy : Bytes → ℕ → Bytes), Terminates asStrncpy →
    ∀ (converter : Converter) (s : JsString), (converter.copy asStrncpy s).Whole s := by
  intro h
  have hwhole := h cutAndEnd cutAndEnd_terminates .udfModule (JsString.lit "é")
  have hholds := hwhole.holds (by decide) ⟨2, [195, 0]⟩ (by decide)
  exact absurd hholds (by decide)

end AerospikeNode

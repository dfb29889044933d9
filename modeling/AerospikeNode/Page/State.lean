import AerospikeNode.Native.Read

/-!
# The saved state of a paginated query or scan

What `as_query_to_bytes` and `as_scan_to_bytes` make of an unfinished query or scan goes to the user
as an object of numbers (`query_bytes_to_jsobject`) and comes back with the next page
(`load_bytes_size`, `load_bytes`). `loadSaved_queryBytesToJsobject`: the bytes come back as they were.
-/

namespace AerospikeNode

/-- `query_bytes_to_jsobject` -/
def queryBytesToJsobject (bytes : Bytes) : JsValue :=
  .plain [(JsString.lit "bytes", .array (bytes.map .byte)),
    (JsString.lit "bytesSize", .num (.ofUInt32 (.ofNat bytes.length)))]

/-- `load_bytes_size`; the size is 0 unless the state has one. -/
def loadBytesSize (saved : JsValue) : UInt32 :=
  match saved.field "bytesSize" with
  | .num n => if n.isUint32 then n.toUint32 else 0
  | _ => 0

/-- The elements that `load_bytes` reads; `none` if a byte stays as `new` left it. -/
def loadElements : ℕ → List JsValue → Option Bytes
  | 0, _ => some []
  | size + 1, .num n :: xs => (loadElements size xs).map (n.toUint32.toUInt8 :: ·)
  | _ + 1, _ => none

/-- `load_bytes` -/
def loadBytes (saved : JsValue) (size : UInt32) : Option Bytes :=
  match saved.field "bytes" with
  | .array xs => loadElements size.toNat xs
  | _ => if size = 0 then some [] else none

theorem loadElements_map_byte (bytes : Bytes) :
    loadElements bytes.length (bytes.map .byte) = some bytes := by
  induction bytes with
  | nil => rfl
  | cons b bytes ih =>
    have hb : b.toNat < 2 ^ 31 := lt_trans b.toNat_lt (by norm_num)
    have hbyte : (JsNumber.ofInt32 (Int32.ofNat b.toNat)).toUint32.toUInt8 = b := by
      rw [JsNumber.toUint32_ofInt32 hb]
      exact UInt8.toNat.inj (by simp)
    rw [List.map_cons, List.length_cons, JsValue.byte, JsValue.int, loadElements, ih, hbyte]
    rfl

/-- A state that is handed back is the bytes it was made of. -/
theorem loadSaved_queryBytesToJsobject {bytes : Bytes} (h : bytes.length < 2 ^ 32) :
    loadBytesSize (queryBytesToJsobject bytes) = .ofNat bytes.length ∧
    loadBytes (queryBytesToJsobject bytes) (.ofNat bytes.length) = some bytes := by
  constructor
  · show (if (JsNumber.ofUInt32 (.ofNat bytes.length)).isUint32 then _ else _) = _
    rw [if_pos (JsNumber.isUint32_ofUInt32 _), JsNumber.toUint32_ofUInt32]
  · show loadElements (UInt32.ofNat bytes.length).toNat (bytes.map .byte) = some bytes
    rw [UInt32.toNat_ofNat_of_lt' h]
    exact loadElements_map_byte bytes

end AerospikeNode

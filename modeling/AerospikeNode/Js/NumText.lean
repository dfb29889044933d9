import AerospikeNode.Js.PropertyKey

/-!
# The text of a number

The characters that `Number::toString` writes: digits, signs, a point, and the letters of `NaN`,
`Infinity` and an exponent.
-/

namespace AerospikeNode

/-- The characters in which numbers are written. -/
def isNumeric (c : Char) : Bool := c.isDigit || "+-.eNaInfity".toList.contains c

theorem isNumeric_digits {b : ℕ} {c : Char} (h : c ∈ Nat.toDigits 10 b) : isNumeric c = true := by
  rw [isNumeric, Nat.isDigit_of_mem_toDigits (by decide) (by decide) h, Bool.true_or]

theorem isNumeric_zeros {k : ℤ} {c : Char} (h : c ∈ zeros k) : isNumeric c = true := by
  obtain rfl := List.eq_of_mem_replicate h
  decide

theorem shortestDigits_numeric {q : ℚ} {c : Char} (h : c ∈ (shortestDigits q).1) : isNumeric c = true :=
  isNumeric_digits h

theorem positiveToString_numeric {q : ℚ} {c : Char} (h : c ∈ positiveToString q) : isNumeric c = true := by
  have hds : ∀ d ∈ (shortestDigits q).1, isNumeric d = true := fun d hd => shortestDigits_numeric hd
  unfold positiveToString at h
  rcases hq : shortestDigits q with ⟨ds, n⟩
  rw [hq] at h hds
  have hexp : ∀ d ∈ (if 0 < n then '+' else '-') :: Nat.toDigits 10 (n - 1).natAbs, isNumeric d = true := by
    intro d hd
    rcases List.mem_cons.1 hd with rfl | hd
    · split_ifs <;> decide
    · exact isNumeric_digits hd
  simp only at h
  generalize (if 0 < n then '+' else '-') = sign at h hexp
  split_ifs at h
  · rcases List.mem_append.1 h with h | h
    · exact hds c h
    · exact isNumeric_zeros h
  · rcases List.mem_append.1 h with h | h
    · exact hds c (List.mem_of_mem_take h)
    · rcases List.mem_cons.1 h with rfl | h
      · decide
      · exact hds c (List.mem_of_mem_drop h)
  · rcases List.mem_append.1 h with h | h
    · rcases List.mem_cons.1 h with rfl | h
      · decide
      · rcases List.mem_cons.1 h with rfl | h
        · decide
        · exact isNumeric_zeros h
    · exact hds c h
  · rcases ds with _ | ⟨d, _ | ⟨d', ds⟩⟩
    · cases h
    · rcases List.mem_cons.1 h with rfl | h
      · exact hds _ (.head _)
      · rcases List.mem_cons.1 h with rfl | h
        · decide
        · exact hexp c h
    · rcases List.mem_cons.1 h with rfl | h
      · exact hds _ (.head _)
      · rcases List.mem_cons.1 h with rfl | h
        · decide
        · rcases List.mem_append.1 h with h | h
          · exact hds c (.tail _ h)
          · rcases List.mem_cons.1 h with rfl | h
            · decide
            · exact hexp c h

theorem JsNumber.toChars_numeric {n : JsNumber} {c : Char} (h : c ∈ n.toChars) : isNumeric c = true := by
  have hall : ∀ s : String, s.toList.all isNumeric = true → c ∈ s.toList → isNumeric c = true :=
    fun s hs hc => List.all_eq_true.1 hs c hc
  cases n with
  | nan => exact hall "NaN" (by decide) h
  | inf neg =>
    cases neg with
    | true => exact hall "-Infinity" (by decide) h
    | false => exact hall "Infinity" (by decide) h
  | negZero =>
    obtain rfl := List.mem_singleton.1 h
    decide
  | fin q hq =>
    rw [toChars] at h
    split_ifs at h
    · obtain rfl := List.mem_singleton.1 h
      decide
    · rcases List.mem_cons.1 h with rfl | h
      · decide
      · exact positiveToString_numeric h
    · exact positiveToString_numeric h

/-- The code units in which numbers are written. -/
theorem JsNumber.unit_numeric {n : JsNumber} {u : UInt16} (h : u ∈ JsString.ofChars n.toChars) :
    isNumeric (Char.ofNat u.toNat) = true := by
  obtain ⟨c, hc, hu⟩ := List.mem_flatMap.1 h
  have hnum := JsNumber.toChars_numeric hc
  have hlt : c.toNat < 128 := by
    have hall : "+-.eNaInfity".toList.all (fun d => d.toNat < 128) = true := by decide
    rw [List.all_eq_true] at hall
    rw [isNumeric, Bool.or_eq_true] at hnum
    rcases hnum with hd | hd
    · rw [Char.isDigit, Bool.and_eq_true, decide_eq_true_eq, decide_eq_true_eq] at hd
      have := hd.2
      have h2 : c.val.toNat ≤ 57 := this
      exact lt_of_le_of_lt h2 (by decide)
    · exact of_decide_eq_true (hall c (List.contains_iff_mem.1 hd))
  rw [JsString.ofChar, if_pos (by omega)] at hu
  obtain rfl := List.mem_singleton.1 hu
  rw [UInt16.toNat_ofNat_of_lt' (by show c.toNat < 65536; omega), Char.ofNat_toNat]
  exact hnum

end AerospikeNode

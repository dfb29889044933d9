import AerospikeNode.Native.Denotes
import AerospikeNode.Ops.Handlers

/-!
# What arguments and policies stand for

The arguments and the policy of an operation in the terms of the caller: a property is a JavaScript
value, and the type that the C client wants it as is the constructor of `ArgSpec`. There is `read`,
what the native code makes of it, `Denotes`, what it should come to, and `Exact`: `denotes_read` says
that what is read is what it should be exactly where it is `Exact`.
-/

namespace AerospikeNode

namespace JsValue

/-- The value is the integer `i`. -/
def IsInt (v : JsValue) (i : ℤ) : Prop := ∃ n, v = .num n ∧ n.Is i

theorem isInt_num {n : JsNumber} {i : ℤ} : (num n).IsInt i ↔ n.Is i := by
  constructor
  · rintro ⟨n', hn, h⟩
    cases hn
    exact h
  · intro h
    exact ⟨n, rfl, h⟩

theorem isNullish_of_isObject {v : JsValue} (h : v.isObject = true) : v.isNullish = false := by
  cases v with
  | undefined | null => cases h
  | _ => rfl

/-- An argument whose items are named: a Map that is whole, or an object that is no wrapper and whose names and values
are whole. -/
def WholeItems [Platform] : JsValue → Prop
  | map es => (map es).Whole
  | obj cls ps => (cls.wrapper ≠ some .double ∧ cls.wrapper ≠ some .geojson) ∧
      CleanNames (ps.map Prod.fst) ∧ ∀ p ∈ ps, p.2.Whole
  | _ => False

end JsValue

open JsValue

/-! ### Integers -/

section
variable {v : JsValue}

theorem intProperty_is {i : Int32} (h : v.intProperty = .ok i) :
    v.IsInt i.toInt ↔ ∃ i : Int32, v.IsInt i.toInt := by
  cases v with
  | num n =>
    cases h
    simp only [isInt_num]
    exact JsNumber.is_toInt32
  | _ => cases h

theorem int64Property_is {i : Int64} (h : v.int64Property = .ok i) :
    v.IsInt i.toInt ↔ ∃ i : Int64, v.IsInt i.toInt := by
  cases v with
  | num n =>
    cases h
    simp only [isInt_num]
    exact JsNumber.is_toInt64
  | _ => cases h

theorem uint32Property_is {u : UInt32} (h : v.uint32Property = .ok u) :
    v.IsInt u.toNat ↔ ∃ u : UInt32, v.IsInt u.toNat := by
  cases v with
  | num n =>
    cases h
    simp only [isInt_num]
    exact JsNumber.is_toUint32
  | _ => cases h

/-- A number given, or a default. -/
def GivenInt (v : JsValue) (dflt i : Int32) : Prop := (v = .undefined ∧ i = dflt) ∨ v.IsInt i.toInt

def ExactInt (v : JsValue) : Prop := v = .undefined ∨ ∃ i : Int32, v.IsInt i.toInt

theorem intOr_given {dflt i : Int32} (h : v.intOr dflt = .ok i) : GivenInt v dflt i ↔ ExactInt v := by
  cases v with
  | undefined =>
    cases h
    exact ⟨fun _ => .inl rfl, fun _ => .inl ⟨rfl, rfl⟩⟩
  | num n =>
    cases h
    have hnum := intProperty_is (v := .num n) rfl
    constructor
    · rintro (⟨h, -⟩ | h)
      · cases h
      · exact .inr (hnum.1 h)
    · rintro (h | h)
      · cases h
      · exact .inr (hnum.2 h)
  | _ => cases h

/-- An optional number. -/
def GivenOptional {α : Type} (toInt : α → ℤ) (v : JsValue) (r : Option α) : Prop :=
  (v.isNullish = true ∧ r = none) ∨ ∃ a, r = some a ∧ v.IsInt (toInt a)

def ExactOptional {α : Type} (toInt : α → ℤ) (v : JsValue) : Prop :=
  v.isNullish = true ∨ ∃ a : α, v.IsInt (toInt a)

theorem optionalNumber_given {α : Type} {read : JsNumber → α} {toInt : α → ℤ} {r : Option α}
    (hread : ∀ n : JsNumber, n.Is (toInt (read n)) ↔ ∃ a : α, n.Is (toInt a))
    (h : v.optionalNumber read = .ok r) : GivenOptional toInt v r ↔ ExactOptional toInt v := by
  cases v with
  | undefined =>
    cases h
    exact ⟨fun _ => .inl rfl, fun _ => .inl ⟨rfl, rfl⟩⟩
  | null =>
    cases h
    exact ⟨fun _ => .inl rfl, fun _ => .inl ⟨rfl, rfl⟩⟩
  | num n =>
    cases h
    constructor
    · rintro (⟨h, -⟩ | ⟨a, -, h⟩)
      · cases h
      · exact .inr ⟨a, h⟩
    · rintro (h | ⟨a, h⟩)
      · cases h
      · exact .inr ⟨_, rfl, isInt_num.2 ((hread n).2 ⟨a, isInt_num.1 h⟩)⟩
  | _ => cases h

theorem GivenOptional.none_iff {α : Type} {toInt : α → ℤ} {v : JsValue} {r : Option α}
    (h : GivenOptional toInt v r) : r = none ↔ v.isNullish = true := by
  rcases h with ⟨hv, rfl⟩ | ⟨a, rfl, n, rfl, -⟩
  · exact ⟨fun _ => hv, fun _ => rfl⟩
  · exact ⟨fun h => (nomatch h), fun h => (nomatch h)⟩

theorem optionalNumber_none_iff {α : Type} {f : JsNumber → α} {v : JsValue} {r : Option α}
    (h : v.optionalNumber f = .ok r) : r = none ↔ v.isNullish = true := by
  cases v with
  | undefined | null =>
    cases h
    exact ⟨fun _ => rfl, fun _ => rfl⟩
  | num n =>
    cases h
    exact ⟨fun h => (nomatch h), fun h => (nomatch h)⟩
  | _ => cases h

theorem GivenOptional.exact {α : Type} {toInt : α → ℤ} {v : JsValue} {r : Option α}
    (h : GivenOptional toInt v r) : ExactOptional toInt v := by
  rcases h with ⟨hv, -⟩ | ⟨a, -, h⟩
  · exact .inl hv
  · exact .inr ⟨a, h⟩

end

/-! ### Arguments -/

/-- An argument of an operation, as the type that the C client wants. -/
inductive ArgSpec where
  | int (v : JsValue)
  | int64 (v : JsValue)
  | uint32 (v : JsValue)
  | bool (v : JsValue)
  | bytes (v : JsValue)
  | val (v : JsValue)
  | optVal (v : JsValue)
  | list (v : JsValue)
  | items (v : JsValue)
  | returnType (v : JsValue) (inverted : Bool)
  | command (c : UInt16)

namespace ArgSpec

def read [Platform] : ArgSpec → Res OpArg
  | int v => v.intProperty.map .int
  | int64 v => v.int64Property.map .int64
  | uint32 v => v.uint32Property.map .uint32
  | bool v => v.boolProperty.map .bool
  | bytes v => v.bytesProperty.map .bytes
  | val v => v.asvalProperty.map fun a => .val (some a)
  | optVal v => v.optionalAsvalProperty.map .val
  | list v => v.listProperty.map .list
  | items v => (itemsProperty v).map .map
  | returnType v inverted =>
    (returnTypeOf v).map fun t => .int (if inverted then t ||| LIST_RETURN_INVERTED else t)
  | command c => .ok (.uint16 c)

/-- The argument is the caller's: an integer is the number itself, a value the one it stands for, an open end is
`NULL`, and a return type is inverted only where that was asked for. -/
def Denotes : OpArg → ArgSpec → Prop
  | .int i, int v => v.IsInt i.toInt
  | .int64 i, int64 v => v.IsInt i.toInt
  | .uint32 u, uint32 v => v.IsInt u.toNat
  | .bool b, bool v => v = .bool b
  | .bytes bs, bytes v => v = .buffer bs
  | .val a, val v => ∃ a', a = some a' ∧ v.Denotes a'
  | .val a, optVal v => (v.isNullish = true ∧ a = none) ∨ (v.isNullish = false ∧ ∃ a', a = some a' ∧ v.Denotes a')
  | .list xs, list v => v.Denotes (.list xs)
  | .map es, items v => v.Denotes (.map es)
  | .int r, returnType v inverted => ∃ t : Int32, GivenInt v 0 t ∧
      r = (if inverted then t ||| LIST_RETURN_INVERTED else t) ∧
      (inverted = false → t &&& LIST_RETURN_INVERTED = 0)
  | .uint16 c, command c' => c = c'
  | _, _ => False

def Exact [Platform] : ArgSpec → Prop
  | int v => ∃ i : Int32, v.IsInt i.toInt
  | int64 v => ∃ i : Int64, v.IsInt i.toInt
  | uint32 v => ∃ u : UInt32, v.IsInt u.toNat
  | val v | list v => v.Whole
  | optVal v => v.isNullish = true ∨ v.Whole
  | items v => v.WholeItems
  | returnType v inverted =>
    ∃ t : Int32, GivenInt v 0 t ∧ (inverted = false → t &&& LIST_RETURN_INVERTED = 0)
  | _ => True

theorem asvalProperty_eq [Platform] {v : JsValue} {a : AsVal} (h : v.asvalProperty = .ok a) :
    v.asvalFromJsvalue = .ok a := by
  cases v with
  | undefined => cases h
  | _ => exact h

theorem optionalAsvalProperty_eq [Platform] {v : JsValue} {r : Option AsVal} (h : v.optionalAsvalProperty = .ok r) :
    (v.isNullish = true ∧ r = none) ∨ (v.isNullish = false ∧ ∃ a, r = some a ∧ v.asvalFromJsvalue = .ok a) := by
  have hval : (v.asvalFromJsvalue).map some = .ok r → v.isNullish = false →
      (v.isNullish = true ∧ r = none) ∨
        (v.isNullish = false ∧ ∃ a, r = some a ∧ v.asvalFromJsvalue = .ok a) := by
    intro h hv
    obtain ⟨a, ha, rfl⟩ := Except.map_eq_ok.1 h
    exact .inr ⟨hv, a, rfl, ha⟩
  cases v with
  | undefined =>
    cases h
    exact .inl ⟨rfl, rfl⟩
  | null =>
    cases h
    exact .inl ⟨rfl, rfl⟩
  | _ => exact hval h rfl

theorem denotes_itemsProperty [Platform] {v : JsValue} {es : List (AsVal × AsVal)} (h : itemsProperty v = .ok es) :
    v.Denotes (.map es) ↔ v.WholeItems := by
  cases v with
  | map es' =>
    refine denotes_asval (.map es') ?_
    rw [asvalFromJsvalue, show mapFromJsmap es' [] = .ok es from h]
    rfl
  | obj cls ps => exact denotes_plain (fun cs => denotes_props ps) h
  | array xs =>
    refine iff_of_false ?_ id
    intro hden
    cases hden
  | buffer bs =>
    refine iff_of_false ?_ id
    intro hden
    cases hden
  | func =>
    refine iff_of_false ?_ id
    intro hden
    cases hden
  | _ => cases h

/-- A return type that is read is the one given. -/
theorem givenInt_returnTypeOf {v : JsValue} {t t' : Int32} (h : returnTypeOf v = .ok t) (ht : GivenInt v 0 t') :
    t' = t := by
  cases v with
  | undefined =>
    cases h
    rcases ht with ⟨-, rfl⟩ | ⟨n, hn, -⟩
    · rfl
    · cases hn
  | num n =>
    cases h
    rcases ht with ⟨hv, -⟩ | ht
    · cases hv
    · rw [isInt_num] at ht
      rw [JsNumber.toInt32, ht.toInteger_eq, Int32.ofInt_toInt]
  | _ => cases h

theorem denotes_read [Platform] {s : ArgSpec} {a : OpArg} (h : s.read = .ok a) : Denotes a s ↔ s.Exact := by
  cases s with
  | int v =>
    obtain ⟨i, hi, rfl⟩ := Except.map_eq_ok.1 h
    exact intProperty_is hi
  | int64 v =>
    obtain ⟨i, hi, rfl⟩ := Except.map_eq_ok.1 h
    exact int64Property_is hi
  | uint32 v =>
    obtain ⟨u, hu, rfl⟩ := Except.map_eq_ok.1 h
    exact uint32Property_is hu
  | bool v =>
    obtain ⟨b, hb, rfl⟩ := Except.map_eq_ok.1 h
    refine ⟨fun _ => trivial, fun _ => ?_⟩
    cases v with
    | bool b' =>
      cases hb
      rfl
    | _ => cases hb
  | bytes v =>
    obtain ⟨bs, hbs, rfl⟩ := Except.map_eq_ok.1 h
    refine ⟨fun _ => trivial, fun _ => ?_⟩
    cases v with
    | buffer bs' =>
      cases hbs
      rfl
    | _ => cases hbs
  | val v =>
    obtain ⟨a, ha, rfl⟩ := Except.map_eq_ok.1 h
    rw [Exact, ← denotes_asval v (asvalProperty_eq ha)]
    constructor
    · rintro ⟨a', ha', hden⟩
      cases ha'
      exact hden
    · exact fun hden => ⟨a, rfl, hden⟩
  | optVal v =>
    obtain ⟨r, hr, rfl⟩ := Except.map_eq_ok.1 h
    rcases optionalAsvalProperty_eq hr with ⟨hn, rfl⟩ | ⟨hn, a, rfl, ha⟩
    · exact ⟨fun _ => .inl hn, fun _ => .inl ⟨hn, rfl⟩⟩
    · rw [Exact, ← denotes_asval v ha]
      constructor
      · rintro (⟨hn', -⟩ | ⟨-, a', ha', hden⟩)
        · exact .inl hn'
        · cases ha'
          exact .inr hden
      · rintro (hn' | hden)
        · rw [hn] at hn'
          cases hn'
        · exact .inr ⟨hn, a, rfl, hden⟩
  | list v =>
    obtain ⟨xs, hxs, rfl⟩ := Except.map_eq_ok.1 h
    cases v with
    | array xs' =>
      refine denotes_asval (.array xs') ?_
      rw [asvalFromJsvalue, show listFromJsarray xs' = .ok xs from hxs]
      rfl
    | _ => cases hxs
  | items v =>
    obtain ⟨es, hes, rfl⟩ := Except.map_eq_ok.1 h
    exact denotes_itemsProperty hes
  | returnType v inverted =>
    obtain ⟨t, ht, rfl⟩ := Except.map_eq_ok.1 h
    constructor
    · rintro ⟨t', hgiven, -, hinv⟩
      exact ⟨t', hgiven, hinv⟩
    · rintro ⟨t', hgiven, hinv⟩
      exact ⟨t', hgiven, by rw [givenInt_returnTypeOf ht hgiven], hinv⟩
  | command c =>
    cases h
    exact ⟨fun _ => trivial, fun _ => rfl⟩

end ArgSpec

/-! ### Policies -/

/-- The policy of an operation. -/
inductive PolicySpec where
  | none
  | list (v : JsValue)
  | map (v : JsValue)
  | bit (v : JsValue)
  /-- The policy of a bitwise operation that takes none. -/
  | bitUnused (v : JsValue)
  | hll (v : JsValue)

namespace PolicySpec
variable (D : PolicyDefaults)

def read : PolicySpec → Res OpPolicy
  | none => .ok .none
  | list v => listPolicyArg D (.plain [(JsString.lit "policy", v)])
  | map v => mapPolicyArg D (.plain [(JsString.lit "policy", v)])
  | bit v => flagsPolicyArg D.bitFlags (.plain [(JsString.lit "policy", v)])
  | bitUnused v => (flagsPolicyArg D.bitFlags (.plain [(JsString.lit "policy", v)])).map fun _ => .none
  | hll v => flagsPolicyArg D.hllFlags (.plain [(JsString.lit "policy", v)])

/-- The order and flags, or the mode where there are no flags, of a map policy. -/
def DenotesMap (p : MapPolicy) (v : JsValue) : Prop :=
  ∃ order mode flags, GivenOptional Int32.toInt (v.field "order") order ∧
    GivenOptional (fun u : UInt32 => (u.toNat : ℤ)) (v.field "writeFlags") flags ∧
    (flags = .none → GivenOptional Int32.toInt (v.field "writeMode") mode) ∧
    p = match flags with
      | some flags => ⟨order.getD D.mapOrder, D.mapMode, flags⟩
      | .none => ⟨order.getD D.mapOrder, mode.getD D.mapMode, D.mapFlags⟩

def DenotesFlags (dflt : Int32) (p : OpPolicy) (v : JsValue) : Prop :=
  (v = .undefined ∧ p = .none) ∨
    (v.isObject = true ∧ ∃ flags, p = .flags flags ∧ GivenInt (v.field "writeFlags") dflt flags)

/-- The policy is the caller's, with the defaults where it leaves something open. -/
def Denotes (p : OpPolicy) : PolicySpec → Prop
  | none | bitUnused _ => p = .none
  | list v =>
    (v.isNullish = true ∧ p = .none) ∨
      (v.isObject = true ∧ ∃ order flags, p = .list ⟨order, flags⟩ ∧
        GivenInt (v.field "order") D.listOrder order ∧ GivenInt (v.field "writeFlags") D.listFlags flags)
  | map v =>
    (v = .undefined ∧ p = .map (.init D)) ∨ (v.isObject = true ∧ ∃ mp, p = .map mp ∧ DenotesMap D mp v)
  | bit v => DenotesFlags D.bitFlags p v
  | hll v => DenotesFlags D.hllFlags p v

def ExactFlags (v : JsValue) : Prop := v = .undefined ∨ (v.isObject = true ∧ ExactInt (v.field "writeFlags"))

def Exact : PolicySpec → Prop
  | none | bitUnused _ => True
  | list v => v.isNullish = true ∨
      (v.isObject = true ∧ ExactInt (v.field "order") ∧ ExactInt (v.field "writeFlags"))
  | map v => v = .undefined ∨
      (v.isObject = true ∧ ExactOptional Int32.toInt (v.field "order") ∧
        ExactOptional (fun u : UInt32 => (u.toNat : ℤ)) (v.field "writeFlags") ∧
        ((v.field "writeFlags").isNullish = true → ExactOptional Int32.toInt (v.field "writeMode")))
  | bit v => ExactFlags v
  | hll v => ExactFlags v

variable {D} {p : OpPolicy} {v : JsValue}

theorem denotes_list (h : (list v).read D = .ok p) : Denotes D p (list v) ↔ (list v).Exact := by
  have hfield : (plain [(JsString.lit "policy", v)]).field "policy" = v := rfl
  rw [read, listPolicyArg, getOptionalListPolicy, hfield] at h
  cases hv : v.isObject with
  | false =>
    rw [if_neg (by rw [hv]; decide)] at h
    cases h
    constructor
    · rintro (⟨hn, -⟩ | ⟨ho, -⟩)
      · exact .inl hn
      · exact absurd (hv.symm.trans ho) (by decide)
    · rintro (hn | ⟨ho, -⟩)
      · exact .inl ⟨hn, rfl⟩
      · exact absurd (hv.symm.trans ho) (by decide)
  | true =>
    rw [if_pos hv] at h
    have hnot : v.isNullish ≠ true := by rw [isNullish_of_isObject hv]; decide
    obtain ⟨r, hr, rfl⟩ := Except.map_eq_ok.1 h
    obtain ⟨lp, hlp, rfl⟩ := Except.map_eq_ok.1 hr
    obtain ⟨order, horder, hlp⟩ := Except.bind_eq_ok.1 hlp
    obtain ⟨flags, hflags, hlp⟩ := Except.bind_eq_ok.1 hlp
    cases hlp
    constructor
    · rintro (⟨hn, -⟩ | ⟨-, o, f, he, ho, hf⟩)
      · exact absurd hn hnot
      · cases he
        exact .inr ⟨hv, (intOr_given horder).1 ho, (intOr_given hflags).1 hf⟩
    · rintro (hn | ⟨-, ho, hf⟩)
      · exact absurd hn hnot
      · exact .inr ⟨hv, order, flags, rfl, (intOr_given horder).2 ho, (intOr_given hflags).2 hf⟩

/-- `get_map_policy` and the readers of flags are no policy for `undefined`, and read an object. -/
theorem object_or_undefined {α : Type} {v : JsValue} {dflt a : α} {f : JsValue → Res α}
    (h : (match v with
      | .undefined => .ok dflt
      | v => if v.isObject then f v else .error .paramErr) = (.ok a : Res α)) :
    (v = .undefined ∧ a = dflt) ∨ (v.isObject = true ∧ f v = .ok a) := by
  cases v with
  | undefined =>
    cases h
    exact .inl ⟨rfl, rfl⟩
  | null | bool | str | num | bigint | symbol => cases h
  | _ => exact .inr ⟨rfl, h⟩

theorem denotes_map (h : (map v).read D = .ok p) : Denotes D p (map v) ↔ (map v).Exact := by
  obtain ⟨mp, hmp, rfl⟩ := Except.map_eq_ok.1 h
  rcases object_or_undefined hmp with ⟨rfl, rfl⟩ | ⟨hv, hmp⟩
  · exact ⟨fun _ => .inl rfl, fun _ => .inl ⟨rfl, rfl⟩⟩
  have hnot : v ≠ .undefined := by
    rintro rfl
    cases hv
  obtain ⟨order, horder, hmp⟩ := Except.bind_eq_ok.1 hmp
  obtain ⟨mode, hmode, hmp⟩ := Except.bind_eq_ok.1 hmp
  obtain ⟨flags, hflags, hmp⟩ := Except.bind_eq_ok.1 hmp
  constructor
  · rintro (⟨h, -⟩ | ⟨-, mp', -, order', mode', flags', ho, hf, hm, -⟩)
    · exact absurd h hnot
    · exact .inr ⟨hv, ho.exact, hf.exact, fun hn => (hm (hf.none_iff.2 hn)).exact⟩
  · rintro (h | ⟨-, ho, hf, hm⟩)
    · exact absurd h hnot
    · refine .inr ⟨hv, mp, rfl, order, mode, flags, ?_, ?_, fun hn => ?_, ?_⟩
      · exact (optionalNumber_given (fun n => JsNumber.is_toInt32) horder).2 ho
      · exact (optionalNumber_given (fun n => JsNumber.is_toUint32) hflags).2 hf
      · exact (optionalNumber_given (fun n => JsNumber.is_toInt32) hmode).2
          (hm ((optionalNumber_none_iff hflags).1 hn))
      · cases flags with
        | none => exact (Except.ok.inj hmp).symm
        | some flags => exact (Except.ok.inj hmp).symm

theorem denotes_flags {dflt : Int32}
    (h : flagsPolicyArg dflt (.plain [(JsString.lit "policy", v)]) = .ok p) :
    DenotesFlags dflt p v ↔ ExactFlags v := by
  obtain ⟨r, hr, rfl⟩ := Except.map_eq_ok.1 h
  rcases object_or_undefined hr with ⟨rfl, rfl⟩ | ⟨hv, hr⟩
  · exact ⟨fun _ => .inl rfl, fun _ => .inl ⟨rfl, rfl⟩⟩
  have hnot : v ≠ .undefined := by
    rintro rfl
    cases hv
  obtain ⟨flags, hflags, rfl⟩ := Except.map_eq_ok.1 hr
  constructor
  · rintro (⟨h, -⟩ | ⟨-, flags', hf, hgiven⟩)
    · exact absurd h hnot
    · cases hf
      exact .inr ⟨hv, (intOr_given hflags).1 hgiven⟩
  · rintro (h | ⟨-, hexact⟩)
    · exact absurd h hnot
    · exact .inr ⟨hv, flags, rfl, (intOr_given hflags).2 hexact⟩

theorem denotes_read {s : PolicySpec} (h : s.read D = .ok p) : Denotes D p s ↔ s.Exact := by
  cases s with
  | none =>
    cases h
    exact ⟨fun _ => trivial, fun _ => rfl⟩
  | list v => exact denotes_list h
  | map v => exact denotes_map h
  | bit v => exact denotes_flags h
  | bitUnused v =>
    obtain ⟨q, -, rfl⟩ := Except.map_eq_ok.1 h
    exact ⟨fun _ => trivial, fun _ => rfl⟩
  | hll v => exact denotes_flags h

end PolicySpec

end AerospikeNode

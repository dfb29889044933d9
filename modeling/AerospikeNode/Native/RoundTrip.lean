import AerospikeNode.Native.ToJs

/-!
# Values there and back

What a value becomes when `asval_from_jsvalue` makes a native value of it and `val_to_jsvalue` a
JavaScript value of that. `normal` is the form a value is meant to come back in, and `Same` is
equality of values in which the order of an object's properties does not count.

Strings and names go through a `char *`, the number `2^63` through a saturating cast, and entries of
a map through `Nan::Set` of an object: `roundTrip_iff` says that these are the only losses.
-/

namespace AerospikeNode

namespace JsValue

def doubleObj (d : JsNumber) : JsValue :=
  obj ⟨JsString.lit "Double", some .double⟩ [(JsString.lit "Double", num d)]

def geojsonObj (s : JsString) : JsValue :=
  obj ⟨JsString.lit "GeoJSON", some .geojson⟩ [(JsString.lit "str", str s)]

/-- The values of data: what a bin can be given. -/
inductive IsData : JsValue → Prop
  | undefined : IsData undefined
  | null : IsData null
  | bool (b) : IsData (bool b)
  | str (s) : IsData (str s)
  | num (n) : IsData (num n)
  | bigint (i) : IsData (bigint i)
  | buffer (bs) : IsData (buffer bs)
  | double (d) : IsData (doubleObj d)
  | geojson (s) : IsData (geojsonObj s)
  | array {xs} (h : ∀ x ∈ xs, IsData x) : IsData (array xs)
  | map {es : List (JsValue × JsValue)} (hk : ∀ e ∈ es, IsData e.1) (hv : ∀ e ∈ es, IsData e.2) :
    IsData (map es)
  | plain {ps : Props} (hn : (ps.map Prod.fst).Nodup) (h : ∀ p ∈ ps, IsData p.2) : IsData (plain ps)

/-- A value somewhere in a value: an element, a property, a key or a value of a Map. -/
inductive Part (w : JsValue) : JsValue → Prop
  | refl : Part w w
  | elem {x xs} (hx : x ∈ xs) (h : Part w x) : Part w (array xs)
  | key {e : JsValue × JsValue} {es} (he : e ∈ es) (h : Part w e.1) : Part w (map es)
  | value {e : JsValue × JsValue} {es} (he : e ∈ es) (h : Part w e.2) : Part w (map es)
  | prop {p : JsString × JsValue} {ps : Props} (hp : p ∈ ps) (h : Part w p.2) : Part w (plain ps)

/-- Equal but for the order of the properties of objects. -/
inductive Same : JsValue → JsValue → Prop
  | refl (v) : Same v v
  | array {xs ys} (h : List.Forall₂ Same xs ys) : Same (array xs) (array ys)
  | plain {ps rs qs : Props} (hp : ps.Perm rs) (hn : rs.map Prod.fst = qs.map Prod.fst)
    (h : List.Forall₂ Same (rs.map Prod.snd) (qs.map Prod.snd)) : Same (plain ps) (plain qs)

/-! ### The normal form -/

/-- An integer: a number in the safe range, else a BigInt. -/
def normalInt (i : ℤ) : JsValue := if h : |i| < 2 ^ 53 then num (.ofInt i h) else bigint i

/-- A number; one that is a 64-bit integer comes back as that integer. -/
def normalNum : JsNumber → JsValue
  | .fin q h => if q.den = 1 ∧ -2 ^ 63 ≤ q.num ∧ q.num < 2 ^ 63 then normalInt q.num else num (.fin q h)
  | .negZero => normalInt 0
  | n => num n

mutual
/-- The form a value comes back in, if it can: a Map whose keys have no distinct property names, or
one that has none, cannot. -/
def normal : JsValue → Option JsValue
  | undefined => some null
  | null => some null
  | bool b => some (bool b)
  | str s => some (str s)
  | num n => some (normalNum n)
  | bigint i => some (normalInt i)
  | buffer bs => some (buffer bs)
  | array xs => (normalList xs).map array
  | map es => (normalEntries es).bind fun ps => if (ps.map Prod.fst).Nodup then some (plain ps) else none
  | obj cls ps =>
    match cls.wrapper with
    | some .double => some (Props.get ps (JsString.lit "Double"))
    | some .geojson => some (Props.get ps (JsString.lit "str"))
    | _ => (normalProps ps).map plain
  | symbol => none
  | func => none

def normalList : List JsValue → Option (List JsValue)
  | [] => some []
  | x :: xs => do
    let n ← normal x
    let ns ← normalList xs
    return n :: ns

def normalProps : List (JsString × JsValue) → Option Props
  | [] => some []
  | (name, x) :: ps => do
    let n ← normal x
    let ns ← normalProps ps
    return (name, n) :: ns

def normalEntries : List (JsValue × JsValue) → Option Props
  | [] => some []
  | (k, x) :: es => do
    let name ← (← normal k).toPropertyKey
    let n ← normal x
    let ns ← normalEntries es
    return (name, n) :: ns
end

/-- What can be lost at a value itself, its parts apart: a Map's keys have distinct property names and kinds that
`as_map_set` takes. -/
def Kept [Platform] : JsValue → Prop
  | str s => s.Clean
  | num n => n.val ≠ some (2 ^ 63)
  | map es => (∃ ps, normalEntries es = some ps ∧ (ps.map Prod.fst).Nodup ∧ PROTO ∉ ps.map Prod.fst) ∧
      ∀ e ∈ es, Platform.takesKey e.1.valKind = true
  | obj cls ps =>
    match cls.wrapper with
    | some .geojson => ∀ s, Props.get ps (JsString.lit "str") = str s → s.Clean
    | none => ∀ name ∈ ps.map Prod.fst, JsString.Clean name ∧ name ≠ PROTO
    | _ => True
  | _ => True

/-- A value that is accepted comes back in its normal form. -/
def RoundTrip [Platform] (le : AsVal → AsVal → Bool) (v : JsValue) : Prop :=
  ∀ a, v.asvalFromJsvalue = .ok a → ∃ n, v.normal = some n ∧ Same (a.toJsvalue le) n

variable {le : AsVal → AsVal → Bool}

/-! ### Equality -/

theorem Same.isNullish_eq {x y : JsValue} (h : Same x y) : x.isNullish = y.isNullish := by
  cases h <;> rfl

theorem hidesToString_eq {ps : Props} :
    hidesToString ps = decide (JsString.lit "toString" ∈ ps.map Prod.fst) := by
  rw [hidesToString, Bool.eq_iff_iff, decide_eq_true_iff]
  exact Assoc.any_key_iff

theorem Same.names_perm {ps qs : Props} (h : Same (.plain ps) (.plain qs)) :
    (ps.map Prod.fst).Perm (qs.map Prod.fst) := by
  cases h with
  | refl => exact .refl _
  | plain hp hn _ => exact hn ▸ hp.map _

mutual
theorem Same.toPropertyKey_eq {x y : JsValue} : Same x y → x.toPropertyKey = y.toPropertyKey
  | .refl _ => rfl
  | .array h => by
    rw [toPropertyKey, toPropertyKey, Same.elementStrings_eq h]
  | .plain hp hn h => by
    have hperm := (Same.plain hp hn h).names_perm
    rw [toPropertyKey, toPropertyKey, hidesToString_eq, hidesToString_eq]
    simp only [hperm.mem_iff]

theorem Same.elementStrings_eq {xs ys : List JsValue} :
    List.Forall₂ Same xs ys → elementStrings xs = elementStrings ys
  | .nil => rfl
  | .cons h hs => by
    rw [elementStrings, elementStrings, h.isNullish_eq, Same.toPropertyKey_eq h,
      Same.elementStrings_eq hs]
end

/-! ### Strings and numbers -/

theorem ofCString_nativeStr (s : JsString) : ofCString (nativeStr s) = str s.clean := by
  rw [ofCString, nativeStr, JsString.decode_cstr_utf8]

theorem ofInt64_eq_normalInt (i : Int64) : ofInt64 i = normalInt i.toInt := rfl

theorem normalNum_int {i : ℤ} {h : IsDouble i} (h1 : -2 ^ 63 ≤ i) (h2 : i < 2 ^ 63) :
    normalNum (.fin i h) = normalInt i := by
  rw [normalNum, if_pos ⟨Rat.den_intCast i, by rwa [Rat.num_intCast], by rwa [Rat.num_intCast]⟩,
    Rat.num_intCast]

theorem normalNum_fin {q : ℚ} {h : IsDouble q} (hq : ¬∃ i : ℤ, q = i ∧ -2 ^ 63 ≤ i ∧ i < 2 ^ 63) :
    normalNum (.fin q h) = num (.fin q h) := by
  rw [normalNum, if_neg]
  rintro ⟨hden, h1, h2⟩
  exact hq ⟨q.num, (Rat.den_eq_one_iff q).1 hden |>.symm, h1, h2⟩

theorem num_roundTrip [Platform] {n : JsNumber} {a : AsVal} (ha : (num n).asvalFromJsvalue = .ok a)
    (hn : n.val ≠ some (2 ^ 63)) : a.toJsvalue le = normalNum n := by
  rw [asvalFromJsvalue, Except.ok.injEq] at ha
  subst ha
  rw [isDoubleValue]
  cases n with
  | nan => rfl
  | inf neg => rfl
  | negZero =>
    have h0 : JsNumber.negZero.toInt64 = 0 := by decide
    have hne : JsNumber.neInt .negZero 0 = false := by decide
    rw [h0, show (0 : Int64).toInt = 0 from rfl, hne, if_neg Bool.false_ne_true]
    rfl
  | fin q h =>
    cases hne : (JsNumber.fin q h).neInt (JsNumber.fin q h).toInt64.toInt with
    | false =>
      obtain ⟨i, rfl, h1, h2⟩ := (JsNumber.neInt_toInt64_fin h).1 hne
      have hlt : i < 2 ^ 63 := by
        refine lt_of_le_of_ne h2 fun he => hn ?_
        rw [JsNumber.val, he]
        norm_num
      rw [if_neg Bool.false_ne_true, AsVal.toJsvalue, ofInt64_eq_normalInt, JsNumber.toInt_toInt64_fin,
        JsNumber.trunc_intCast, JsNumber.satInt64_eq h1 hlt, normalNum_int h1 hlt]
    | true =>
      rw [if_pos rfl, AsVal.toJsvalue, normalNum_fin]
      rintro ⟨i, hq, h1, h2⟩
      have := (JsNumber.neInt_toInt64_fin h).2 ⟨i, hq, h1, h2.le⟩
      rw [this] at hne
      exact Bool.false_ne_true hne

theorem num_twoPow63 [Platform] {n : JsNumber} {a : AsVal} (ha : (num n).asvalFromJsvalue = .ok a)
    (hn : n.val = some (2 ^ 63)) : a.toJsvalue le = bigint (2 ^ 63 - 1) ∧ normalNum n = num n := by
  cases n with
  | nan => cases hn
  | inf neg => cases hn
  | negZero =>
    rw [JsNumber.val, Option.some.injEq] at hn
    norm_num at hn
  | fin q h =>
    obtain rfl : q = ((2 ^ 63 : ℤ) : ℚ) := by
      rw [JsNumber.val, Option.some.injEq] at hn
      rw [hn]
      norm_num
    have hne := (JsNumber.neInt_toInt64_fin h).2 ⟨2 ^ 63, rfl, by norm_num, le_refl _⟩
    rw [asvalFromJsvalue, isDoubleValue, hne, if_neg Bool.false_ne_true, Except.ok.injEq] at ha
    subst ha
    constructor
    · rw [AsVal.toJsvalue, ofInt64_eq_normalInt, JsNumber.toInt_toInt64_fin, JsNumber.trunc_intCast]
      have : JsNumber.satInt64 (2 ^ 63) = 2 ^ 63 - 1 := by decide
      rw [this, normalInt, dif_neg (by norm_num)]
    · refine normalNum_fin ?_
      rintro ⟨i, hi, -, h2⟩
      have : (2 ^ 63 : ℤ) = i := by exact_mod_cast hi
      omega

theorem bigint_roundTrip [Platform] {i : ℤ} {a : AsVal} (ha : (bigint i).asvalFromJsvalue = .ok a) :
    a.toJsvalue le = normalInt i := by
  rw [asvalFromJsvalue, bigintToInt64] at ha
  split_ifs at ha with h
  · cases ha
    rw [AsVal.toJsvalue, ofInt64_eq_normalInt, Int64.toInt_ofInt_of_le h.1 h.2]
  · cases ha

/-! ### Objects -/

/-- The object read back of entries whose keys have distinct property names. -/
theorem same_map {cs : List (AsVal × AsVal)} {qs : Props}
    (h : List.Forall₂ (fun c q => (c.1.toJsvalue le).toPropertyKey = some q.1 ∧
      Same (c.2.toJsvalue le) q.2) cs qs)
    (hnd : (qs.map Prod.fst).Nodup) (hproto : PROTO ∉ qs.map Prod.fst) :
    Same ((AsVal.map (cs.foldl (fun es c => Assoc.set es c.1 c.2) [])).toJsvalue le) (plain qs) := by
  obtain ⟨bs, hcb, hnames, hvals⟩ : ∃ bs : Props,
      List.Forall₂ (fun e b => e.1.toPropertyKey = some b.1 ∧ e.2 = b.2)
        (cs.map fun c => (c.1.toJsvalue le, c.2.toJsvalue le)) bs ∧
      bs.map Prod.fst = qs.map Prod.fst ∧ List.Forall₂ Same (bs.map Prod.snd) (qs.map Prod.snd) := by
    clear hnd hproto
    induction h with
    | nil => exact ⟨[], .nil, rfl, .nil⟩
    | @cons c q cs qs hcq _ ih =>
      obtain ⟨bs, hcb, hnames, hvals⟩ := ih
      exact ⟨(q.1, c.2.toJsvalue le) :: bs, .cons ⟨hcq.1, rfl⟩ hcb,
        by rw [List.map_cons, List.map_cons, hnames], .cons hcq.2 hvals⟩
  have hkeys : (cs.map Prod.fst).Nodup := by
    have hmap : (cs.map Prod.fst).map (fun k => (k.toJsvalue le).toPropertyKey) =
        (bs.map Prod.fst).map some := by
      clear h hnames hvals
      induction cs generalizing bs with
      | nil =>
        rw [List.map_nil, List.forall₂_nil_left_iff] at hcb
        rw [hcb]; rfl
      | cons c cs ih =>
        rcases hcb with _ | ⟨hb, hcb⟩
        simp only [List.map_cons, hb.1, ih _ hcb]
    refine List.Nodup.of_map (fun k => (k.toJsvalue le).toPropertyKey) ?_
    rw [hmap, hnames]
    exact hnd.map (Option.some_injective _)
  rw [Assoc.foldl_set_of_nodup (by rwa [List.nil_append]), List.nil_append, AsVal.toJsvalue,
    AsVal.entriesToJs_eq_map, AsVal.objectOf]
  generalize hes : (cs.map fun e => (e.1, e.1.toJsvalue le, e.2.toJsvalue le)) = es
  have hperm : ((es.mergeSort fun a b => le a.1 b.1).map (·.2)).Perm
      (cs.map fun c => (c.1.toJsvalue le, c.2.toJsvalue le)) := by
    have : es.map (·.2) = cs.map fun c => (c.1.toJsvalue le, c.2.toJsvalue le) := by
      rw [← hes, List.map_map]; rfl
    exact this ▸ (List.mergeSort_perm es _).map _
  -- the properties in the order of iteration
  obtain ⟨bs', hbs', hpb⟩ := List.perm_comp_forall₂ hperm hcb
  have hnames' := hpb.map Prod.fst
  rw [hnames] at hnames'
  rw [foldl_setProperty hbs' (mt hnames'.mem_iff.1 hproto),
    Assoc.foldl_set_of_nodup (by rw [List.nil_append]; exact hnames'.nodup_iff.2 hnd), List.nil_append]
  exact .plain hpb hnames hvals

/-- A property of the object read back is the property name of some entry's key. -/
theorem mem_names_map {cs : List (AsVal × AsVal)} {qs : Props} {name : JsString}
    (h : Same ((AsVal.map (cs.foldl (fun es c => Assoc.set es c.1 c.2) [])).toJsvalue le) (plain qs))
    (hname : name ∈ qs.map Prod.fst) :
    name ≠ PROTO ∧ ∃ c ∈ cs, (c.1.toJsvalue le).toPropertyKey = some name := by
  rw [AsVal.toJsvalue, AsVal.entriesToJs_eq_map] at h
  have hmem := h.names_perm.mem_iff.2 hname
  rw [AsVal.objectOf] at hmem
  rcases mem_keys_foldl_setProperty hmem with hmem | ⟨hne, e, he, hk⟩
  · cases hmem
  refine ⟨hne, ?_⟩
  obtain ⟨e', he', rfl⟩ := List.mem_map.1 he
  obtain ⟨c, hc, rfl⟩ := List.mem_map.1 ((List.mergeSort_perm _ _).mem_iff.1 he')
  have hkey := Assoc.mem_keys_foldl_set.1 (Assoc.key_mem hc)
  rcases hkey with hkey | hkey
  · cases hkey
  obtain ⟨c', hc', hcc⟩ := List.mem_map.1 hkey
  exact ⟨c', hc', hcc ▸ hk⟩

theorem asvalFromJsvalue_plain [Platform] {ps : Props} {a : AsVal} (h : (plain ps).asvalFromJsvalue = .ok a) :
    ∃ cs : List (AsVal × AsVal), a = .map (cs.foldl (fun es c => Assoc.set es c.1 c.2) []) ∧
      List.Forall₂ (fun p c => c.1 = .string (nativeStr p.1) ∧ asvalFromJsvalue p.2 = .ok c.2) ps cs := by
  have hd : (plain ps).isDoubleValue = false := by
    show List.isPrefixOf _ _ = false
    decide
  have hg : (plain ps).isGeojsonValue = false := by
    show List.isPrefixOf _ _ = false
    decide
  rw [asvalFromJsvalue, hd, hg, if_neg Bool.false_ne_true, if_neg Bool.false_ne_true] at h
  cases hr : mapFromJsobject ps [] with
  | error e => rw [hr] at h; cases h
  | ok r =>
    obtain ⟨cs, rfl, hcs⟩ := mapFromJsobject_ok.1 hr
    rw [hr] at h; cases h
    exact ⟨cs, rfl, hcs⟩

theorem Part.trans {u w v : JsValue} (huw : Part u w) (hwv : Part w v) : Part u v := by
  induction hwv with
  | refl => exact huw
  | elem hx _ ih => exact .elem hx ih
  | key he _ ih => exact .key he ih
  | value he _ ih => exact .value he ih
  | prop hp _ ih => exact .prop hp ih

/-- The properties of a plain object that is data are data. The other objects have a wrapper. -/
theorem IsData.of_plain {v : JsValue} {ps : Props} (hd : IsData v) (hv : v = JsValue.plain ps) :
    ∀ p ∈ ps, IsData p.2 := by
  cases hd with
  | plain _ h =>
    injection hv with _ hps
    exact hps ▸ h
  | double d | geojson s =>
    injection hv with hcls
    have hwrapper := congrArg JsClass.wrapper hcls
    cases hwrapper
  | _ => cases hv

theorem Part.accepted [Platform] {w v : JsValue} (hp : Part w v) (hd : IsData v) {a : AsVal}
    (ha : v.asvalFromJsvalue = .ok a) : IsData w ∧ ∃ b, w.asvalFromJsvalue = .ok b := by
  induction hp generalizing a with
  | refl => exact ⟨hd, a, ha⟩
  | @elem x xs hx _ ih =>
    obtain ⟨vs, -, hvs⟩ := asvalFromJsvalue_array.1 ha
    obtain ⟨b, -, hb⟩ := hvs.exists_mem hx
    cases hd with | array hd => exact ih (hd x hx) hb
  | @key e es he _ ih =>
    obtain ⟨cs, -, hcs⟩ := asvalFromJsvalue_map ha
    obtain ⟨c, -, hc⟩ := hcs.exists_mem he
    cases hd with | map hk _ => exact ih (hk e he) hc.1
  | @value e es he _ ih =>
    obtain ⟨cs, -, hcs⟩ := asvalFromJsvalue_map ha
    obtain ⟨c, -, hc⟩ := hcs.exists_mem he
    cases hd with | map _ hv => exact ih (hv e he) hc.2
  | @prop p ps hp _ ih =>
    obtain ⟨cs, -, hcs⟩ := asvalFromJsvalue_plain ha
    obtain ⟨c, -, hc⟩ := hcs.exists_mem hp
    exact ih (hd.of_plain rfl p hp) hc.2

/-! ### The parts' normal forms -/

theorem normalList_roundTrip [Platform] {xs : List JsValue} {vs : List AsVal}
    (h : List.Forall₂ (fun x v => asvalFromJsvalue x = .ok v) xs vs)
    (ih : ∀ x ∈ xs, RoundTrip le x) :
    ∃ ns, normalList xs = some ns ∧ List.Forall₂ Same (vs.map (AsVal.toJsvalue le)) ns := by
  induction h with
  | nil => exact ⟨[], rfl, .nil⟩
  | @cons x v xs vs hx _ ih' =>
    obtain ⟨n, hn, hs⟩ := ih x (.head _) v hx
    obtain ⟨ns, hns, hss⟩ := ih' fun y hy => ih y (.tail _ hy)
    refine ⟨n :: ns, ?_, .cons hs hss⟩
    rw [normalList, hn, hns]
    rfl

theorem normalProps_roundTrip [Platform] {ps : Props} {cs : List (AsVal × AsVal)}
    (h : List.Forall₂ (fun p c => c.1 = .string (nativeStr p.1) ∧ asvalFromJsvalue p.2 = .ok c.2) ps cs)
    (ih : ∀ p ∈ ps, RoundTrip le p.2) (hc : ∀ name ∈ ps.map Prod.fst, JsString.Clean name) :
    ∃ qs, normalProps ps = some qs ∧ qs.map Prod.fst = ps.map Prod.fst ∧
      List.Forall₂ (fun c q => (c.1.toJsvalue le).toPropertyKey = some q.1 ∧
        Same (c.2.toJsvalue le) q.2) cs qs := by
  induction h with
  | nil => exact ⟨[], rfl, rfl, .nil⟩
  | @cons p c ps cs hp _ ih' =>
    obtain ⟨n, hn, hs⟩ := ih p (.head _) c.2 hp.2
    obtain ⟨qs, hqs, hnames, hcs⟩ := ih' (fun p hp => ih p (.tail _ hp)) fun name hm => hc name (.tail _ hm)
    have hname : (c.1.toJsvalue le).toPropertyKey = some p.1 := by
      rw [hp.1, AsVal.toJsvalue, ofCString_nativeStr, toPropertyKey,
        JsString.clean_eq_self.2 (hc p.1 (.head _))]
    refine ⟨(p.1, n) :: qs, ?_, ?_, .cons ⟨hname, hs⟩ hcs⟩
    · rw [normalProps, hn, hqs]
      rfl
    · rw [List.map_cons, List.map_cons, hnames]

theorem normalEntries_roundTrip [Platform] {es : List (JsValue × JsValue)} {cs : List (AsVal × AsVal)} {qs : Props}
    (h : List.Forall₂ (fun e c => asvalFromJsvalue e.1 = .ok c.1 ∧ asvalFromJsvalue e.2 = .ok c.2) es cs)
    (ihk : ∀ e ∈ es, RoundTrip le e.1) (ihv : ∀ e ∈ es, RoundTrip le e.2)
    (hqs : normalEntries es = some qs) :
    List.Forall₂ (fun c q => (c.1.toJsvalue le).toPropertyKey = some q.1 ∧
      Same (c.2.toJsvalue le) q.2) cs qs := by
  induction h generalizing qs with
  | nil =>
    rw [normalEntries, Option.some.injEq] at hqs
    subst hqs
    exact .nil
  | @cons e c es cs he _ ih' =>
    obtain ⟨k, hk, hsk⟩ := ihk e (.head _) c.1 he.1
    obtain ⟨n, hn, hsn⟩ := ihv e (.head _) c.2 he.2
    simp only [normalEntries, hk, hn, Option.bind_eq_bind, Option.bind_some] at hqs
    obtain ⟨name, hname, hqs⟩ := Option.bind_eq_some_iff.1 hqs
    obtain ⟨ns, hns, hqs⟩ := Option.bind_eq_some_iff.1 hqs
    obtain rfl := Option.some.inj hqs
    exact .cons ⟨hsk.toPropertyKey_eq.trans hname, hsn⟩
      (ih' (fun e he => ihk e (.tail _ he)) (fun e he => ihv e (.tail _ he)) hns)

/-- The keys of distinct property names are all taken if each of the names comes from a key that is taken. -/
theorem takesKey_of_names [Platform] {es : List (JsValue × JsValue)} {cs : List (AsVal × AsVal)} {qs : Props}
    (hcs : List.Forall₂ (fun e c => asvalFromJsvalue e.1 = .ok c.1 ∧ asvalFromJsvalue e.2 = .ok c.2) es cs)
    (hqs : List.Forall₂ (fun c q => (c.1.toJsvalue le).toPropertyKey = some q.1 ∧ Same (c.2.toJsvalue le) q.2) cs qs)
    (hnd : (qs.map Prod.fst).Nodup)
    (h : ∀ name ∈ qs.map Prod.fst, ∃ c ∈ cs.filter fun c => Platform.takesKey c.1.kind,
      (c.1.toJsvalue le).toPropertyKey = some name) :
    ∀ e ∈ es, Platform.takesKey e.1.valKind = true := by
  intro e he
  obtain ⟨c, hc, hce, -⟩ := hcs.exists_mem he
  obtain ⟨q, hq, hcq, -⟩ := hqs.exists_mem hc
  obtain ⟨c', hc', hname⟩ := h q.1 (Assoc.key_mem hq)
  obtain ⟨hmem, htaken⟩ := List.mem_filter.mp hc'
  have hnames : cs.map (fun c => (c.1.toJsvalue le).toPropertyKey) = (qs.map Prod.fst).map some := by
    rw [List.map_map, ← List.forall₂_eq_eq_eq, List.forall₂_map_left_iff, List.forall₂_map_right_iff]
    exact hqs.imp fun _ _ hcq => hcq.1
  have hinj : (cs.map fun c => (c.1.toJsvalue le).toPropertyKey).Nodup := by
    rw [hnames]
    exact hnd.map (Option.some_injective _)
  have hsame : c' = c := List.inj_on_of_nodup_map hinj hmem hc (hname.trans hcq.symm)
  rw [← kind_asval hce, ← hsame]
  exact htaken

theorem names_normalProps {ps qs : Props} (h : normalProps ps = some qs) :
    qs.map Prod.fst = ps.map Prod.fst := by
  induction ps generalizing qs with
  | nil =>
    rw [normalProps, Option.some.injEq] at h
    rw [← h]
  | cons p ps ih =>
    rw [normalProps] at h
    obtain ⟨n, hn, h⟩ := Option.bind_eq_some_iff.1 h
    obtain ⟨ns, hns, h⟩ := Option.bind_eq_some_iff.1 h
    obtain rfl := Option.some.inj h
    rw [List.map_cons, List.map_cons, ih hns]

/-! ### The round trip -/

theorem roundTrip_of_kept [Platform] {v : JsValue} (hd : IsData v) (h : ∀ w, Part w v → Kept w) :
    RoundTrip le v := by
  induction hd with
  | undefined => rintro _ ⟨⟩; exact ⟨_, rfl, .refl _⟩
  | null => rintro _ ⟨⟩; exact ⟨_, rfl, .refl _⟩
  | bool b => rintro _ ⟨⟩; exact ⟨_, rfl, .refl _⟩
  | buffer bs => rintro _ ⟨⟩; exact ⟨_, rfl, .refl _⟩
  | double d => rintro _ ⟨⟩; exact ⟨_, rfl, .refl _⟩
  | str s =>
    rintro _ ⟨⟩
    refine ⟨_, rfl, ?_⟩
    rw [AsVal.toJsvalue, ofCString_nativeStr, JsString.clean_eq_self.2 (h _ .refl)]
    exact .refl _
  | num n =>
    intro a ha
    exact ⟨_, rfl, num_roundTrip ha (h _ .refl) ▸ .refl _⟩
  | bigint i =>
    intro a ha
    exact ⟨_, rfl, bigint_roundTrip ha ▸ .refl _⟩
  | geojson s =>
    rintro _ ⟨⟩
    have hs : JsString.Clean s := h _ .refl s rfl
    refine ⟨str s, rfl, ?_⟩
    show Same (ofCString (nativeStr s)) (str s)
    rw [ofCString_nativeStr, JsString.clean_eq_self.2 hs]
    exact .refl _
  | @array xs _ ih =>
    intro a ha
    obtain ⟨vs, rfl, hvs⟩ := asvalFromJsvalue_array.1 ha
    obtain ⟨ns, hns, hs⟩ := normalList_roundTrip hvs fun x hx => ih x hx fun w hw => h w (.elem hx hw)
    refine ⟨.array ns, by rw [normal, hns]; rfl, ?_⟩
    rw [AsVal.toJsvalue, AsVal.listToJs_eq_map]
    exact .array hs
  | @map es _ _ ihk ihv =>
    intro a ha
    obtain ⟨cs, rfl, hcs⟩ := asvalFromJsvalue_map ha
    obtain ⟨⟨qs, hqs, hnd, hproto⟩, htaken⟩ := h _ .refl
    have hall : (cs.filter fun c => Platform.takesKey c.1.kind) = cs := by
      rw [List.filter_eq_self]
      intro c hc
      obtain ⟨e, he, hce, -⟩ := hcs.flip.exists_mem hc
      rw [kind_asval hce]
      exact htaken e he
    rw [hall]
    refine ⟨plain qs, by rw [normal, hqs]; exact if_pos hnd, same_map ?_ hnd hproto⟩
    exact normalEntries_roundTrip hcs (fun e he => ihk e he fun w hw => h w (.key he hw))
      (fun e he => ihv e he fun w hw => h w (.value he hw)) hqs
  | @plain ps hnd _ ih =>
    intro a ha
    obtain ⟨cs, rfl, hcs⟩ := asvalFromJsvalue_plain ha
    have hkept : ∀ name ∈ ps.map Prod.fst, JsString.Clean name ∧ name ≠ PROTO := h _ .refl
    obtain ⟨qs, hqs, hnames, hs⟩ := normalProps_roundTrip hcs
      (fun p hp => ih p hp fun w hw => h w (.prop hp hw)) fun name hm => (hkept name hm).1
    refine ⟨plain qs, ?_, same_map hs (hnames ▸ hnd) ?_⟩
    · show (normalProps ps).map plain = some (plain qs)
      rw [hqs]; rfl
    · rw [hnames]
      exact fun hm => (hkept _ hm).2 rfl

theorem Same.str_inj {s t : JsString} (h : Same (str s) (str t)) : s = t := by
  cases h
  rfl

theorem kept_of_roundTrip [Platform] {v : JsValue} (hd : IsData v) {a : AsVal} (ha : v.asvalFromJsvalue = .ok a)
    (h : ∀ w, Part w v → RoundTrip le w) : Kept v := by
  obtain ⟨n, hn, hs⟩ := h v .refl a ha
  cases hd with
  | undefined => trivial
  | null => trivial
  | bool b => trivial
  | bigint i => trivial
  | buffer bs => trivial
  | double d => trivial
  | array _ => trivial
  | str s =>
    cases ha; cases hn
    rw [AsVal.toJsvalue, ofCString_nativeStr] at hs
    exact JsString.clean_eq_self.1 hs.str_inj
  | num n =>
    intro hval
    obtain ⟨hback, hnormal⟩ : a.toJsvalue le = bigint (2 ^ 63 - 1) ∧ normalNum n = .num n :=
      num_twoPow63 ha hval
    rw [normal, hnormal, Option.some.injEq] at hn
    rw [hback, ← hn] at hs
    cases hs
  | geojson s =>
    intro t ht
    obtain rfl : s = t := by injection ht
    cases ha; cases hn
    have hs' : Same (ofCString (nativeStr s)) (str s) := hs
    rw [ofCString_nativeStr] at hs'
    exact JsString.clean_eq_self.1 hs'.str_inj
  | @map es _ _ =>
    obtain ⟨cs, rfl, hcs⟩ := asvalFromJsvalue_map ha
    rw [normal] at hn
    obtain ⟨qs, hqs, hn⟩ := Option.bind_eq_some_iff.1 hn
    split_ifs at hn with hnd
    obtain rfl := Option.some.inj hn
    have hparts := normalEntries_roundTrip hcs (fun e he => h _ (.key he .refl)) (fun e he => h _ (.value he .refl)) hqs
    exact ⟨⟨qs, hqs, hnd, fun hm => (mem_names_map hs hm).1 rfl⟩,
      takesKey_of_names hcs hparts hnd fun name hm => (mem_names_map hs hm).2⟩
  | @plain ps _ _ =>
    obtain ⟨cs, rfl, hcs⟩ := asvalFromJsvalue_plain ha
    change (normalProps ps).map plain = some n at hn
    obtain ⟨qs, hqs, rfl⟩ := Option.map_eq_some_iff.1 hn
    intro name hm
    rw [← names_normalProps hqs] at hm
    obtain ⟨hne, c, hc, hkey⟩ := mem_names_map hs hm
    obtain ⟨p, -, hp, -⟩ := hcs.flip.exists_mem hc
    rw [hp, AsVal.toJsvalue, ofCString_nativeStr, toPropertyKey, Option.some.injEq] at hkey
    exact ⟨hkey ▸ JsString.clean_clean _, hne⟩

/-- An accepted value and all its parts come back in their normal forms exactly when no string, name
or GeoJSON text in it has a NUL or a lone surrogate, no number is `2^63`, no name is `__proto__`, and
the keys of each Map have distinct property names and kinds that the C client takes. -/
theorem roundTrip_iff [Platform] (le : AsVal → AsVal → Bool) {v : JsValue} (hd : IsData v) {a : AsVal}
    (ha : v.asvalFromJsvalue = .ok a) :
    (∀ w, Part w v → RoundTrip le w) ↔ ∀ w, Part w v → Kept w := by
  constructor
  · intro h w hw
    obtain ⟨hdw, b, hb⟩ := hw.accepted hd ha
    exact kept_of_roundTrip hdw hb fun u hu => h u (hu.trans hw)
  · intro h w hw
    refine roundTrip_of_kept (hw.accepted hd ha).1 fun u hu => h u ?_
    exact hu.trans hw

open Platform

/-- `["a", undefined]` comes back as `["a", null]`. -/
theorem array_roundTrip :
    ∃ n, (array [str (JsString.lit "a"), undefined]).normal = some n ∧
      Same ((AsVal.list [.string [97], .nil]).toJsvalue fun _ _ => true) n := by
  have hd : IsData (array [str (JsString.lit "a"), undefined]) := by
    refine .array fun x hx => ?_
    rcases List.mem_pair.1 hx with rfl | rfl
    · exact .str _
    · exact .undefined
  refine (roundTrip_iff _ hd rfl).2 (fun w hw => ?_) _ .refl _ rfl
  cases hw with
  | refl => trivial
  | elem hx hw =>
    rcases List.mem_pair.1 hx with rfl | rfl
    · cases hw
      show JsString.Clean (JsString.lit "a")
      decide
    · cases hw
      trivial

/-- `new Map([[1, true], ['1', false]])` is accepted, and one entry is lost. -/
theorem map_not_roundTrip : ¬ ∀ (le : AsVal → AsVal → Bool) (v : JsValue) (a : AsVal), IsData v →
    v.asvalFromJsvalue = .ok a → RoundTrip le v := by
  intro h
  let v : JsValue := map [(num (.ofInt 1 (by norm_num)), bool true), (str (JsString.lit "1"), bool false)]
  have hd : IsData v := by
    refine .map (fun e he => ?_) fun e he => ?_
    all_goals rcases List.mem_pair.1 he with rfl | rfl
    · exact .num _
    · exact .str _
    · exact .bool _
    · exact .bool _
  have hint : (num (.ofInt 1 (by norm_num))).isDoubleValue = false :=
    isDoubleValue_num.2 ⟨1, rfl, by norm_num, by norm_num⟩
  have hone : (num (.ofInt 1 (by norm_num))).asvalFromJsvalue = .ok (.integer 1) := by
    rw [asvalFromJsvalue, hint, if_neg Bool.false_ne_true]
    decide
  have hname : (str (JsString.lit "1")).asvalFromJsvalue = .ok (.string [49]) := by decide
  have ha : v.asvalFromJsvalue = .ok (.map [(.integer 1, .boolean true), (.string [49], .boolean false)]) := by
    show (mapFromJsmap [(num (.ofInt 1 (by norm_num)), bool true), (str (JsString.lit "1"), bool false)] []).map
      AsVal.map = _
    rw [mapFromJsmap, hone]
    show (mapFromJsmap [(str (JsString.lit "1"), bool false)] [(.integer 1, .boolean true)]).map AsVal.map = _
    rw [mapFromJsmap, hname]
    rfl
  have hparts : ∀ w, Part w v → RoundTrip (fun _ _ => true) w := fun w hw b hb =>
    h (fun _ _ => true) w b (hw.accepted hd ha).1 hb b hb
  obtain ⟨⟨qs, hqs, hnd, -⟩, -⟩ := kept_of_roundTrip hd ha hparts
  have h1 : JsString.ofChars (JsNumber.ofInt 1 (by norm_num)).toChars = JsString.lit "1" := by
    decide +kernel
  have hkey : (normalNum (.ofInt 1 (by norm_num))).toPropertyKey = some (JsString.lit "1") := by
    rw [JsNumber.ofInt, normalNum_int (by norm_num) (by norm_num)]
    exact congrArg some h1
  simp only [normalEntries, normal, hkey, toPropertyKey, Option.bind_eq_bind, Option.bind_some,
    Option.pure_def, Option.some.injEq] at hqs
  subst hqs
  exact absurd hnd (by decide)

end JsValue

end AerospikeNode

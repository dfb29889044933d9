import AerospikeNode.Native.AsVal

/-!
# The native values that are meant

`Denotes` says which native value a JavaScript value stands for, and `Whole` which values
`asval_from_jsvalue` leaves whole: `denotes_asval` says that what a value is converted to is what it
stands for exactly where it is `Whole`.
-/

namespace AerospikeNode

/-- The bytes are the UTF-8 of the whole string. -/
def Utf8Of (bs : Bytes) (s : JsString) : Prop := s.WellFormed = true ∧ bs = s.utf8

theorem Utf8Of.inj {s t : JsString} {bs : Bytes} (hs : Utf8Of bs s) (ht : Utf8Of bs t) : s = t :=
  JsString.utf8_inj hs.1 ht.1 (hs.2 ▸ ht.2)

theorem utf8Of_nativeStr {s : JsString} : Utf8Of (nativeStr s) s ↔ s.Clean := by
  rw [Utf8Of, nativeStr, JsString.cstr_eq_self, JsString.Clean]

namespace JsValue

/-- The native string is the name. -/
def IsName (name : JsString) (k : AsVal) : Prop := ∃ bs, k = .string bs ∧ Utf8Of bs name

/-- The native value is the value: a number that is a 64-bit integer as that integer, text and names as their UTF-8,
the entries of a Map one by one, and an object as its properties unless it is one of the client's wrappers. -/
inductive Denotes : JsValue → AsVal → Prop
  | undefined : Denotes undefined .nil
  | null : Denotes null .nil
  | bool (b) : Denotes (bool b) (.boolean b)
  | str {s bs} (h : Utf8Of bs s) : Denotes (str s) (.string bs)
  | int {n} {i : Int64} (h : n.Is i.toInt) : Denotes (num n) (.integer i)
  | float {n} (h : ∀ i : Int64, ¬n.Is i.toInt) : Denotes (num n) (.double n)
  | bigint {i : ℤ} {j : Int64} (h : j.toInt = i) : Denotes (bigint i) (.integer j)
  | buffer (bs) : Denotes (buffer bs) (.bytes bs)
  | array {xs as} (h : List.Forall₂ Denotes xs as) : Denotes (array xs) (.list as)
  | map {es cs} (hk : List.Forall₂ Denotes (es.map Prod.fst) (cs.map Prod.fst))
    (hv : List.Forall₂ Denotes (es.map Prod.snd) (cs.map Prod.snd)) : Denotes (map es) (.map cs)
  | double {cls ps d} (hc : cls.wrapper = some .double) (hd : Props.get ps (JsString.lit "Double") = num d) :
    Denotes (obj cls ps) (.double d)
  | geojson {cls ps s bs} (hc : cls.wrapper = some .geojson) (hs : Props.get ps (JsString.lit "str") = str s)
    (hb : Utf8Of bs s) : Denotes (obj cls ps) (.geojson bs)
  | object {cls ps cs} (hc : cls.wrapper ≠ some .double ∧ cls.wrapper ≠ some .geojson)
    (hn : List.Forall₂ IsName (ps.map Prod.fst) (cs.map Prod.fst))
    (hv : List.Forall₂ Denotes (ps.map Prod.snd) (cs.map Prod.snd)) : Denotes (obj cls ps) (.map cs)

/-- Names that `as_stringmap_set` keeps apart and as they are. -/
def CleanNames (names : List JsString) : Prop := (∀ name ∈ names, name.Clean) ∧ names.Nodup

/-- The values of which nothing is lost: texts and names have no NUL and no lone surrogate, no number is `2^63`, the
keys of a Map stand for different native values of kinds that `as_map_set` takes, and only the client's own wrappers
have names that are taken for theirs. -/
inductive Whole [Platform] : JsValue → Prop
  | undefined : Whole undefined
  | null : Whole null
  | bool (b) : Whole (bool b)
  | str {s} (h : s.Clean) : Whole (str s)
  | num {n} (h : n.val ≠ some (2 ^ 63)) : Whole (num n)
  | bigint (i) : Whole (bigint i)
  | buffer (bs) : Whole (buffer bs)
  | array {xs} (h : ∀ x ∈ xs, Whole x) : Whole (array xs)
  | map {es : List (JsValue × JsValue)} (hk : ∀ e ∈ es, Whole e.1) (hv : ∀ e ∈ es, Whole e.2)
    (ht : ∀ e ∈ es, Platform.takesKey e.1.valKind = true)
    (hd : (es.map Prod.fst).Pairwise fun k k' => ∀ a, k.Denotes a → ¬k'.Denotes a) : Whole (map es)
  | double {cls ps d} (hc : cls.wrapper = some .double) (ht : (obj cls ps).isDoubleValue = true)
    (hd : Props.get ps (JsString.lit "Double") = num d) : Whole (obj cls ps)
  | geojson {cls ps s} (hc : cls.wrapper = some .geojson)
    (ht : (obj cls ps).isDoubleValue = false ∧ (obj cls ps).isGeojsonValue = true)
    (hs : Props.get ps (JsString.lit "str") = str s) (hb : s.Clean) : Whole (obj cls ps)
  | object {cls} {ps : Props} (hc : cls.wrapper ≠ some .double ∧ cls.wrapper ≠ some .geojson)
    (ht : (obj cls ps).isDoubleValue = false ∧ (obj cls ps).isGeojsonValue = false)
    (hn : CleanNames (ps.map Prod.fst)) (hv : ∀ p ∈ ps, Whole p.2) : Whole (obj cls ps)

/-! ### A value stands for one native value -/

theorem IsName.unique : Relator.RightUnique IsName := by
  rintro name k k' ⟨bs, rfl, h⟩ ⟨bs', rfl, h'⟩
  rw [h.2, h'.2]

theorem entries_ext {cs ds : List (AsVal × AsVal)} (hk : cs.map Prod.fst = ds.map Prod.fst)
    (hv : cs.map Prod.snd = ds.map Prod.snd) : cs = ds := by
  rw [← List.zip_unzip cs, ← List.zip_unzip ds, List.unzip_eq_map, List.unzip_eq_map, hk, hv]

mutual
theorem Denotes.unique : ∀ (v : JsValue) {a b : AsVal}, v.Denotes a → v.Denotes b → a = b
  | .undefined, _, _, .undefined, .undefined => rfl
  | .null, _, _, .null, .null => rfl
  | .bool _, _, _, .bool _, .bool _ => rfl
  | .symbol, _, _, h, _ => by cases h
  | .func, _, _, h, _ => by cases h
  | .str s, _, _, h, h' => by
    cases h with | str h =>
    cases h' with | str h' =>
    rw [h.2, h'.2]
  | .num n, _, _, h, h' => by
    cases h with
    | int h =>
      cases h' with
      | int h' => rw [Int64.toInt_inj.mp (h.toInteger_eq.symm.trans h'.toInteger_eq)]
      | float h' => exact absurd h (h' _)
    | float h =>
      cases h' with
      | int h' => exact absurd h' (h _)
      | float _ => rfl
  | .bigint i, _, _, h, h' => by
    cases h with | bigint h =>
    cases h' with | bigint h' =>
    rw [Int64.toInt_inj.mp (h.trans h'.symm)]
  | .buffer _, _, _, .buffer _, .buffer _ => rfl
  | .array xs, _, _, h, h' => by
    cases h with | array h =>
    cases h' with | array h' =>
    rw [unique_list xs h h']
  | .map es, _, _, h, h' => by
    cases h with | map hk hv =>
    cases h' with | map hk' hv' =>
    rw [entries_ext (unique_keys es hk hk') (unique_values es hv hv')]
  | .obj cls ps, _, _, h, h' => by
    cases h with
    | double hc hd =>
      cases h' with
      | double hc' hd' =>
        cases hd.symm.trans hd'
        rfl
      | geojson hc' => cases hc.symm.trans hc'
      | object hc' => exact absurd hc hc'.1
    | geojson hc hs hb =>
      cases h' with
      | double hc' => cases hc.symm.trans hc'
      | geojson hc' hs' hb' =>
        cases hs.symm.trans hs'
        rw [hb.2, hb'.2]
      | object hc' => exact absurd hc hc'.2
    | object hc hn hv =>
      cases h' with
      | double hc' => exact absurd hc' hc.1
      | geojson hc' => exact absurd hc' hc.2
      | object _ hn' hv' => rw [entries_ext (List.right_unique_forall₂' IsName.unique hn hn') (unique_props ps hv hv')]

theorem unique_list : ∀ (xs : List JsValue) {as bs : List AsVal},
    List.Forall₂ Denotes xs as → List.Forall₂ Denotes xs bs → as = bs
  | [], _, _, .nil, .nil => rfl
  | x :: xs, _, _, .cons h hs, .cons h' hs' => by rw [Denotes.unique x h h', unique_list xs hs hs']

theorem unique_keys : ∀ (es : List (JsValue × JsValue)) {as bs : List AsVal},
    List.Forall₂ Denotes (es.map Prod.fst) as → List.Forall₂ Denotes (es.map Prod.fst) bs → as = bs
  | [], _, _, .nil, .nil => rfl
  | (k, _) :: es, _, _, .cons h hs, .cons h' hs' => by rw [Denotes.unique k h h', unique_keys es hs hs']

theorem unique_values : ∀ (es : List (JsValue × JsValue)) {as bs : List AsVal},
    List.Forall₂ Denotes (es.map Prod.snd) as → List.Forall₂ Denotes (es.map Prod.snd) bs → as = bs
  | [], _, _, .nil, .nil => rfl
  | (_, v) :: es, _, _, .cons h hs, .cons h' hs' => by rw [Denotes.unique v h h', unique_values es hs hs']

theorem unique_props : ∀ (ps : List (JsString × JsValue)) {as bs : List AsVal},
    List.Forall₂ Denotes (ps.map Prod.snd) as → List.Forall₂ Denotes (ps.map Prod.snd) bs → as = bs
  | [], _, _, .nil, .nil => rfl
  | (_, v) :: ps, _, _, .cons h hs, .cons h' hs' => by rw [Denotes.unique v h h', unique_props ps hs hs']
end

/-! ### What is converted -/

/-- An object that is no wrapper stands for its properties. -/
theorem denotes_object {cls : JsClass} {ps : Props} {r : List (AsVal × AsVal)} :
    (obj cls ps).Denotes (.map r) ↔ (cls.wrapper ≠ some .double ∧ cls.wrapper ≠ some .geojson) ∧
      List.Forall₂ IsName (ps.map Prod.fst) (r.map Prod.fst) ∧
        List.Forall₂ Denotes (ps.map Prod.snd) (r.map Prod.snd) := by
  constructor
  · intro h
    cases h with | object hc hn hv =>
    exact ⟨hc, hn, hv⟩
  · rintro ⟨hc, hn, hv⟩
    exact .object hc hn hv

section
variable [Platform]

theorem denotes_num {n : JsNumber} {a : AsVal} (h : (num n).asvalFromJsvalue = .ok a) :
    (num n).Denotes a ↔ n.val ≠ some (2 ^ 63) := by
  rw [asvalFromJsvalue] at h
  cases hd : (num n).isDoubleValue with
  | true =>
    rw [hd, if_pos rfl] at h
    obtain rfl := Except.ok.inj h
    have hnone : ∀ i : ℤ, n.Is i → -2 ^ 63 ≤ i → ¬i ≤ 2 ^ 63 := by
      intro i hi hlow hhigh
      have hint := isDoubleValue_num.mpr ⟨i, hi, hlow, hhigh⟩
      rw [hd] at hint
      cases hint
    constructor
    · intro _ hval
      exact hnone (2 ^ 63) (by rw [JsNumber.Is, hval]; norm_num) (by norm_num) (le_refl _)
    · intro _
      refine .float fun i hi => hnone i.toInt hi i.le_toInt ?_
      have := i.toInt_lt
      omega
  | false =>
    rw [hd, if_neg Bool.false_ne_true] at h
    obtain rfl := Except.ok.inj h
    obtain ⟨i, hi, hlow, hhigh⟩ := isDoubleValue_num.mp hd
    constructor
    · intro hden hval
      cases hden with | int hint =>
      have : (2 ^ 63 : ℚ) = n.toInt64.toInt := Option.some.inj (hval.symm.trans hint)
      have hlt := n.toInt64.toInt_lt
      have heq : (2 ^ 63 : ℤ) = n.toInt64.toInt := by exact_mod_cast this
      omega
    · intro hval
      have hne : i ≠ 2 ^ 63 := by
        rintro rfl
        refine hval (hi.trans ?_)
        norm_num
      refine .int (JsNumber.is_toInt64.mpr ⟨Int64.ofInt i, ?_⟩)
      rwa [Int64.toInt_ofInt_of_le hlow (by omega)]

theorem denotes_bigint {i : ℤ} {a : AsVal} (h : (bigint i).asvalFromJsvalue = .ok a) : (bigint i).Denotes a := by
  rw [asvalFromJsvalue, bigintToInt64] at h
  split_ifs at h with hi
  · cases h
    exact .bigint (Int64.toInt_ofInt_of_le hi.1 hi.2)
  · cases h

/-- The entries of a Map are what is set exactly where no key is refused and no two agree. -/
theorem denotes_entries {es : List (JsValue × JsValue)} {cs : List (AsVal × AsVal)}
    (hcs : List.Forall₂ (fun e c => asvalFromJsvalue e.1 = .ok c.1 ∧ asvalFromJsvalue e.2 = .ok c.2) es cs)
    (hk : List.Forall₂ Denotes (es.map Prod.fst) (cs.map Prod.fst) ↔ ∀ e ∈ es, e.1.Whole)
    (hv : List.Forall₂ Denotes (es.map Prod.snd) (cs.map Prod.snd) ↔ ∀ e ∈ es, e.2.Whole) :
    (map es).Denotes (.map
      ((cs.filter fun c => Platform.takesKey c.1.kind).foldl (fun es c => Assoc.set es c.1 c.2) [])) ↔
      (map es).Whole := by
  have hdistinct : List.Forall₂ Denotes (es.map Prod.fst) (cs.map Prod.fst) →
      ((cs.map Prod.fst).Nodup ↔ (es.map Prod.fst).Pairwise fun k k' => ∀ a, k.Denotes a → ¬k'.Denotes a) := by
    generalize es.map Prod.fst = ks
    generalize cs.map Prod.fst = as
    intro hden
    induction hden with
    | nil => exact ⟨fun _ => .nil, fun _ => .nil⟩
    | @cons k a ks as hka hden ih =>
      rw [List.nodup_cons, List.pairwise_cons, ih]
      refine and_congr_left fun _ => ⟨?_, ?_⟩
      · rintro hnot k' hk' a' ha ha'
        obtain ⟨b, hb, hkb⟩ := hden.exists_mem hk'
        rw [Denotes.unique k hka ha, Denotes.unique k' ha' hkb] at hnot
        exact hnot hb
      · intro hne ha
        obtain ⟨k', hk', hka'⟩ := hden.flip.exists_mem ha
        exact hne k' hk' a hka hka'
  have htaken : (∀ c ∈ cs, Platform.takesKey c.1.kind = true) ↔ ∀ e ∈ es, Platform.takesKey e.1.valKind = true := by
    constructor
    · intro h e he
      obtain ⟨c, hc, hce, -⟩ := hcs.exists_mem he
      exact kind_asval hce ▸ h c hc
    · intro h c hc
      obtain ⟨e, he, hce, -⟩ := hcs.flip.exists_mem hc
      rw [kind_asval hce]
      exact h e he
  constructor
  · intro h
    cases h with | map hkeys hvals =>
    have hlen : es.length = cs.length := hcs.length_eq
    have hkept := hkeys.length_eq
    rw [List.length_map, List.length_map] at hkept
    have hset := Assoc.length_foldl_set_le [] (cs.filter fun c => Platform.takesKey c.1.kind)
    have hfilter := List.length_filter_le (fun c : AsVal × AsVal => Platform.takesKey c.1.kind) cs
    rw [List.length_nil] at hset
    have hfull : (cs.filter fun c => Platform.takesKey c.1.kind).length = cs.length := by omega
    have hall := List.length_filter_eq_length_iff.mp hfull
    rw [List.filter_eq_self.mpr hall] at hkeys hvals hkept
    have hnodup : (([] ++ cs).map Prod.fst).Nodup :=
      Assoc.nodup_of_length_foldl_set List.nodup_nil (hkept.symm.trans (by simpa using hlen))
    rw [Assoc.foldl_set_of_nodup hnodup, List.nil_append] at hkeys hvals
    exact .map (hk.mp hkeys) (hv.mp hvals) (htaken.mp hall) ((hdistinct hkeys).mp hnodup)
  · intro h
    cases h with | map hkeys hvals ht hd =>
    have hden := hk.mpr hkeys
    have hnodup : (([] ++ cs).map Prod.fst).Nodup := (hdistinct hden).mpr hd
    rw [List.filter_eq_self.mpr (htaken.mpr ht), Assoc.foldl_set_of_nodup hnodup]
    exact .map hden (hv.mpr hvals)

/-- The properties of an object are what is set exactly where their names stay apart. -/
theorem denotes_properties {ps : Props} {cs : List (AsVal × AsVal)}
    (hcs : List.Forall₂ (fun p c => c.1 = .string (nativeStr p.1) ∧ asvalFromJsvalue p.2 = .ok c.2) ps cs)
    (hv : List.Forall₂ Denotes (ps.map Prod.snd) (cs.map Prod.snd) ↔ ∀ p ∈ ps, p.2.Whole) :
    (∃ ds, cs.foldl (fun es c => Assoc.set es c.1 c.2) [] = ds ∧
      List.Forall₂ IsName (ps.map Prod.fst) (ds.map Prod.fst) ∧
      List.Forall₂ Denotes (ps.map Prod.snd) (ds.map Prod.snd)) ↔
      CleanNames (ps.map Prod.fst) ∧ ∀ p ∈ ps, p.2.Whole := by
  have hkeys : cs.map Prod.fst = (ps.map Prod.fst).map fun name => .string (nativeStr name) := by
    rw [List.map_map, eq_comm, ← List.forall₂_eq_eq_eq, List.forall₂_map_left_iff, List.forall₂_map_right_iff]
    exact hcs.imp fun _ _ h => h.1.symm
  have hnames : List.Forall₂ IsName (ps.map Prod.fst) (cs.map Prod.fst) ↔ ∀ name ∈ ps.map Prod.fst, name.Clean := by
    rw [hkeys, List.forall₂_map_right_iff, List.forall₂_same]
    refine forall₂_congr fun name _ => ?_
    constructor
    · rintro ⟨bs, hbs, hutf⟩
      cases hbs
      exact utf8Of_nativeStr.mp hutf
    · exact fun h => ⟨_, rfl, utf8Of_nativeStr.mpr h⟩
  constructor
  · rintro ⟨_, rfl, hn, hvals⟩
    have hlen : ps.length = cs.length := hcs.length_eq
    have hkept := hn.length_eq
    rw [List.length_map, List.length_map] at hkept
    have hnodup : (([] ++ cs).map Prod.fst).Nodup :=
      Assoc.nodup_of_length_foldl_set List.nodup_nil (hkept.symm.trans (by simpa using hlen))
    rw [Assoc.foldl_set_of_nodup hnodup, List.nil_append] at hn hvals
    rw [List.nil_append, hkeys] at hnodup
    exact ⟨⟨hnames.mp hn, hnodup.of_map _⟩, hv.mp hvals⟩
  · rintro ⟨⟨hclean, hnodup⟩, hwhole⟩
    have hnodup' : (([] ++ cs).map Prod.fst).Nodup := by
      rw [List.nil_append, hkeys]
      refine hnodup.map_on fun s hs t ht hst => ?_
      have hbytes : nativeStr s = nativeStr t := by injection hst
      exact (utf8Of_nativeStr.mpr (hclean s hs)).inj (hbytes ▸ utf8Of_nativeStr.mpr (hclean t ht))
    refine ⟨_, rfl, ?_⟩
    rw [Assoc.foldl_set_of_nodup hnodup', List.nil_append]
    exact ⟨hnames.mpr hclean, hv.mpr hwhole⟩

theorem denotes_double {cls : JsClass} {ps : Props} {a : AsVal} (ht : (obj cls ps).isDoubleValue = true)
    (h : (obj cls ps).asvalFromJsvalue = .ok a) : (obj cls ps).Denotes a ↔ (obj cls ps).Whole := by
  rw [asvalFromJsvalue, if_pos ht] at h
  obtain ⟨d, hd, rfl⟩ := Except.map_eq_ok.mp h
  rw [doubleValue, if_pos (show (obj cls ps).instanceOf DoubleType = true from ht)] at hd
  constructor
  · intro h
    cases h with | double hc hnum =>
    exact .double hc ht hnum
  · intro h
    cases h with
    | double hc _ hnum =>
      rw [get, hnum] at hd
      cases hd
      exact .double hc hnum
    | geojson _ ht' => cases ht.symm.trans ht'.1
    | object _ ht' => cases ht.symm.trans ht'.1

theorem denotes_geojson {cls : JsClass} {ps : Props} {a : AsVal} (hd : (obj cls ps).isDoubleValue = false)
    (hg : (obj cls ps).isGeojsonValue = true) (h : (obj cls ps).asvalFromJsvalue = .ok a) :
    (obj cls ps).Denotes a ↔ (obj cls ps).Whole := by
  rw [asvalFromJsvalue, if_neg (by rw [hd]; decide), if_pos hg] at h
  obtain rfl := Except.ok.inj h
  have htext : ∀ s, Props.get ps (JsString.lit "str") = str s →
      (Utf8Of (obj cls ps).geojsonAsString s ↔ s.Clean) := by
    intro s hs
    rw [geojsonAsString, get, hs, toStr]
    exact utf8Of_nativeStr
  constructor
  · intro h
    cases h with | geojson hc hs hb =>
    exact .geojson hc ⟨hd, hg⟩ hs ((htext _ hs).mp hb)
  · intro h
    cases h with
    | double _ hd' => cases hd.symm.trans hd'
    | geojson hc _ hs hb => exact .geojson hc hs ((htext _ hs).mpr hb)
    | object _ ht => cases hg.symm.trans ht.2

theorem denotes_plain {cls : JsClass} {ps : Props} {r : List (AsVal × AsVal)}
    (hv : ∀ cs : List (AsVal × AsVal), List.Forall₂ (fun p c => asvalFromJsvalue p.2 = .ok c.2) ps cs →
      (List.Forall₂ Denotes (ps.map Prod.snd) (cs.map Prod.snd) ↔ ∀ p ∈ ps, p.2.Whole))
    (h : mapFromJsobject ps [] = .ok r) :
    (obj cls ps).Denotes (.map r) ↔ (cls.wrapper ≠ some .double ∧ cls.wrapper ≠ some .geojson) ∧
      CleanNames (ps.map Prod.fst) ∧ ∀ p ∈ ps, p.2.Whole := by
  obtain ⟨cs, rfl, hcs⟩ := mapFromJsobject_ok.mp h
  rw [denotes_object, ← denotes_properties hcs (hv cs (hcs.imp fun _ _ h => h.2))]
  constructor
  · rintro ⟨hc, hn, hvals⟩
    exact ⟨hc, _, rfl, hn, hvals⟩
  · rintro ⟨hc, _, rfl, hn, hvals⟩
    exact ⟨hc, hn, hvals⟩

mutual
/-- What a value is converted to is what it stands for exactly where it is whole. -/
theorem denotes_asval : ∀ (v : JsValue) {a : AsVal}, v.asvalFromJsvalue = .ok a → (v.Denotes a ↔ v.Whole)
  | .undefined, _, h => by cases h; exact ⟨fun _ => .undefined, fun _ => .undefined⟩
  | .null, _, h => by cases h; exact ⟨fun _ => .null, fun _ => .null⟩
  | .bool b, _, h => by cases h; exact ⟨fun _ => .bool b, fun _ => .bool b⟩
  | .symbol, _, h => by cases h
  | .func, _, h => by
    cases h
    constructor
    · intro h
      cases h
    · intro h
      cases h
  | .str s, _, h => by
    cases h
    constructor
    · intro h
      cases h with | str h =>
      exact .str (utf8Of_nativeStr.mp h)
    · intro h
      cases h with | str h =>
      exact .str (utf8Of_nativeStr.mpr h)
  | .num n, _, h => by
    rw [denotes_num h]
    constructor
    · exact .num
    · intro h
      cases h with | num h =>
      exact h
  | .bigint i, _, h => ⟨fun _ => .bigint i, fun _ => denotes_bigint h⟩
  | .buffer bs, _, h => by cases h; exact ⟨fun _ => .buffer bs, fun _ => .buffer bs⟩
  | .array xs, _, h => by
    rw [asvalFromJsvalue] at h
    obtain ⟨as, has, rfl⟩ := Except.map_eq_ok.mp h
    have hall := denotes_elements xs (listFromJsarray_ok.mp has)
    constructor
    · intro h
      cases h with | array h =>
      exact .array (hall.mp h)
    · intro h
      cases h with | array h =>
      exact .array (hall.mpr h)
  | .map es, _, h => by
    obtain ⟨cs, rfl, hcs⟩ := asvalFromJsvalue_map h
    exact denotes_entries hcs (denotes_keys es (hcs.imp fun _ _ h => h.1))
      (denotes_values es (hcs.imp fun _ _ h => h.2))
  | .obj cls ps, a, h => by
    cases hd : (obj cls ps).isDoubleValue with
    | true => exact denotes_double hd h
    | false =>
      cases hg : (obj cls ps).isGeojsonValue with
      | true => exact denotes_geojson hd hg h
      | false =>
        rw [asvalFromJsvalue, if_neg (by rw [hd]; decide), if_neg (by rw [hg]; decide)] at h
        obtain ⟨r, hr, rfl⟩ := Except.map_eq_ok.mp h
        rw [denotes_plain (fun cs => denotes_props ps) hr]
        constructor
        · rintro ⟨hc, hn, hv⟩
          exact .object hc ⟨hd, hg⟩ hn hv
        · intro h
          cases h with
          | double _ hd' => cases hd.symm.trans hd'
          | geojson _ ht => cases hg.symm.trans ht.2
          | object hc _ hn hv => exact ⟨hc, hn, hv⟩

theorem denotes_elements : ∀ (xs : List JsValue) {as : List AsVal},
    List.Forall₂ (fun x a => asvalFromJsvalue x = .ok a) xs as → (List.Forall₂ Denotes xs as ↔ ∀ x ∈ xs, x.Whole)
  | [], _, .nil => ⟨fun _ _ h => absurd h List.not_mem_nil, fun _ => .nil⟩
  | x :: xs, _, .cons h hs => by
    rw [List.forall₂_cons, denotes_asval x h, denotes_elements xs hs, List.forall_mem_cons]

theorem denotes_keys : ∀ (es : List (JsValue × JsValue)) {cs : List (AsVal × AsVal)},
    List.Forall₂ (fun e c => asvalFromJsvalue e.1 = .ok c.1) es cs →
      (List.Forall₂ Denotes (es.map Prod.fst) (cs.map Prod.fst) ↔ ∀ e ∈ es, e.1.Whole)
  | [], _, .nil => ⟨fun _ _ h => absurd h List.not_mem_nil, fun _ => .nil⟩
  | (k, x) :: es, _, .cons h hs => by
    rw [List.map_cons, List.map_cons, List.forall₂_cons, denotes_asval k h, denotes_keys es hs, List.forall_mem_cons]

theorem denotes_values : ∀ (es : List (JsValue × JsValue)) {cs : List (AsVal × AsVal)},
    List.Forall₂ (fun e c => asvalFromJsvalue e.2 = .ok c.2) es cs →
      (List.Forall₂ Denotes (es.map Prod.snd) (cs.map Prod.snd) ↔ ∀ e ∈ es, e.2.Whole)
  | [], _, .nil => ⟨fun _ _ h => absurd h List.not_mem_nil, fun _ => .nil⟩
  | (k, x) :: es, _, .cons h hs => by
    rw [List.map_cons, List.map_cons, List.forall₂_cons, denotes_asval x h, denotes_values es hs, List.forall_mem_cons]

theorem denotes_props : ∀ (ps : List (JsString × JsValue)) {cs : List (AsVal × AsVal)},
    List.Forall₂ (fun p c => asvalFromJsvalue p.2 = .ok c.2) ps cs →
      (List.Forall₂ Denotes (ps.map Prod.snd) (cs.map Prod.snd) ↔ ∀ p ∈ ps, p.2.Whole)
  | [], _, .nil => ⟨fun _ _ h => absurd h List.not_mem_nil, fun _ => .nil⟩
  | (name, x) :: ps, _, .cons h hs => by
    rw [List.map_cons, List.map_cons, List.forall₂_cons, denotes_asval x h, denotes_props ps hs, List.forall_mem_cons]
end

end

end JsValue

end AerospikeNode

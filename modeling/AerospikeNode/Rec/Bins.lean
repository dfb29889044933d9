import AerospikeNode.Native.ToJs

/-!
# The bins of a record

`recordbins_from_jsobject` (`src/main/util/conversions.cc`). Of the C client's `as_record` it is
assumed that a name of more than 15 bytes, or a new bin in a full record, is ignored, and that a bin
set twice keeps its last value; the capacity is a `uint16_t`.
-/

namespace AerospikeNode

/-- `AS_BIN_NAME_MAX_SIZE`, and the longest name the C client stores. -/
def AS_BIN_NAME_MAX_SIZE : ℕ := 16
def AS_BIN_NAME_MAX_LEN : ℕ := 15

structure AsRecord where
  capacity : ℕ
  bins : List (Bytes × AsVal)
  name_le : ∀ b ∈ bins, b.1.length ≤ AS_BIN_NAME_MAX_LEN
  room : bins.length ≤ capacity

namespace AsRecord

/-- `as_record_init` -/
def init (count : ℕ) : AsRecord := ⟨count % 2 ^ 16, [], nofun, Nat.zero_le _⟩

/-- `as_record_set` -/
def set (r : AsRecord) (name : Bytes) (v : AsVal) : AsRecord :=
  if hlen : AS_BIN_NAME_MAX_LEN < name.length then r
  else if hmem : name ∈ r.bins.map Prod.fst then
    { capacity := r.capacity
      bins := Assoc.set r.bins name v
      name_le := fun b hb => by
        have := Assoc.key_mem hb
        rw [Assoc.keys_set_of_mem hmem] at this
        obtain ⟨b', hb', he⟩ := List.mem_map.1 this
        exact he ▸ r.name_le b' hb'
      room := by
        have := congrArg List.length (Assoc.keys_set_of_mem (v := v) hmem)
        rw [List.length_map, List.length_map] at this
        exact this ▸ r.room }
  else if hroom : r.bins.length < r.capacity then
    { capacity := r.capacity
      bins := r.bins ++ [(name, v)]
      name_le := fun b hb => by
        rcases List.mem_append.1 hb with hb | hb
        · exact r.name_le b hb
        · obtain rfl := List.mem_singleton.1 hb
          exact Nat.le_of_not_lt hlen
      room := by rw [List.length_append]; exact hroom }
  else r

theorem capacity_set (r : AsRecord) (name : Bytes) (v : AsVal) : (r.set name v).capacity = r.capacity := by
  unfold set
  split_ifs <;> rfl

theorem mem_names_set {r : AsRecord} {name name' : Bytes} {v : AsVal}
    (h : name' ∈ (r.set name v).bins.map Prod.fst) : name' ∈ r.bins.map Prod.fst ∨ name' = name := by
  unfold set at h
  split_ifs at h with h1 h2 h3
  · exact .inl h
  · exact Assoc.mem_keys_set.1 h
  · rw [List.map_append, List.mem_append] at h
    exact h.imp_right List.mem_singleton.1
  · exact .inl h

/-- A short name that is new to a record with room gets a bin of its own. -/
theorem set_new {r : AsRecord} {name : Bytes} {v : AsVal} (hlen : name.length ≤ AS_BIN_NAME_MAX_LEN)
    (hnew : name ∉ r.bins.map Prod.fst) (hroom : r.bins.length < r.capacity) :
    (r.set name v).bins = r.bins ++ [(name, v)] := by
  rw [set, dif_neg (Nat.not_lt.2 hlen), dif_neg hnew, dif_pos hroom]

end AsRecord

/-! ### The object -/

/-- An object: its class and its own enumerable properties. -/
structure JsObject where
  cls : JsClass
  props : Props
  nodup : (props.map Prod.fst).Nodup

namespace JsObject

def toJs (obj : JsObject) : JsValue := .obj obj.cls obj.props

/-- The properties the loop goes over: of a `Bin`, an object made of its name and value. -/
def binProps (obj : JsObject) : Props :=
  if obj.toJs.isBinValue then
    JsValue.setProperty [] (obj.toJs.get (JsString.lit "name")) (obj.toJs.get (JsString.lit "value"))
  else obj.props

end JsObject

/-- The value of a bin; `none` is a value that is skipped. -/
def binValue [Platform] : JsValue → Res (Option AsVal)
  | .undefined => .error .paramErr
  | .null => .ok (some .nil)
  | .bool b => .ok (some (.boolean b))
  | .str s => .ok (some (.string (nativeStr s)))
  | .num n => .ok (some (if (JsValue.num n).isDoubleValue then .double n else .integer n.toInt64))
  | .bigint i => (JsValue.bigintToInt64 i).map fun i => some (.integer i)
  | .buffer bs => .ok (some (.bytes bs))
  | .array xs => (JsValue.listFromJsarray xs).map fun xs => some (.list xs)
  | .map es => (JsValue.mapFromJsmap es []).map fun es => some (.map es)
  | .obj cls ps =>
    if (JsValue.obj cls ps).isDoubleValue then (JsValue.obj cls ps).doubleValue.map fun d => some (.double d)
    else if (JsValue.obj cls ps).isGeojsonValue then
      .ok (some (.geojson (JsValue.obj cls ps).geojsonAsString))
    else (JsValue.mapFromJsobject ps []).map fun es => some (.map es)
  | .func => .ok (some (.map []))
  | .symbol => .ok none

/-- The loop of `recordbins_from_jsobject`. -/
def setBins [Platform] (rec : AsRecord) : Props → Res AsRecord
  | [] => .ok rec
  | (name, value) :: ps =>
    if AS_BIN_NAME_MAX_SIZE < (nativeStr name).length then .error .paramErr
    else do
      let v ← binValue value
      setBins (match v with | some v => rec.set (nativeStr name) v | none => rec) ps

/-- `recordbins_from_jsobject` -/
def recordbinsFromJsobject [Platform] (obj : JsObject) : Res AsRecord :=
  setBins (.init obj.binProps.length) obj.binProps

/-! ### The bins that are meant -/

/-- The bins an object stands for: that of a `Bin`, else one for each own property. -/
def JsObject.bins (obj : JsObject) : Option Props :=
  if obj.toJs.isBinValue then
    ((obj.toJs.get (JsString.lit "name")).toPropertyKey).map fun name =>
      [(name, obj.toJs.get (JsString.lit "value"))]
  else some obj.props

/-- The bin has the property's name and its value converted. -/
def BinOf [Platform] (p : JsString × JsValue) (b : Bytes × AsVal) : Prop :=
  p.1.WellFormed = true ∧ b.1 = p.1.utf8 ∧ p.2.asvalFromJsvalue = .ok b.2

/-- One bin for each property, with its name and its value converted. -/
def AsRecord.Stores [Platform] (rec : AsRecord) (bins : Props) : Prop :=
  ∃ bs, bs.Perm rec.bins ∧ List.Forall₂ BinOf bins bs

/-- Only the client's own class is taken for a `Bin`, what is accepted is stored, and what is not is rejected with an
error. -/
structure BinsFaithful [Platform] (obj : JsObject) : Prop where
  own : obj.toJs.isBinValue → obj.cls.wrapper = some .bin
  rejects : recordbinsFromJsobject obj ≠ .error .abort
  stores : ∀ rec, recordbinsFromJsobject obj = .ok rec → ∃ bins, obj.bins = some bins ∧ rec.Stores bins

/-- A property the loop gets past. -/
def BinAccepted [Platform] (p : JsString × JsValue) : Prop :=
  (nativeStr p.1).length ≤ AS_BIN_NAME_MAX_SIZE ∧ ∃ v, binValue p.2 = .ok v

/-- The objects `recordbins_from_jsobject` accepts. -/
def BinsAccepted [Platform] (obj : JsObject) : Prop := ∀ p ∈ obj.binProps, BinAccepted p

/-- Behind properties that are accepted there is one with a value that V8 does not survive: a symbol in an array, or
a `Double` that holds no number. -/
def BinsAbort [Platform] (obj : JsObject) : Prop :=
  ∃ pre p post, obj.binProps = pre ++ p :: post ∧ (∀ q ∈ pre, BinAccepted q) ∧
    (nativeStr p.1).length ≤ AS_BIN_NAME_MAX_SIZE ∧ binValue p.2 = .error .abort

/-- The objects whose bins a record holds as they are. -/
structure FitsRecord (obj : JsObject) : Prop where
  named : obj.toJs.isBinValue →
    ∃ name, (obj.toJs.get (JsString.lit "name")).toPropertyKey = some name ∧ name ≠ JsValue.PROTO
  name : ∀ p ∈ obj.binProps, p.1.Clean ∧ p.1.utf8.length ≤ AS_BIN_NAME_MAX_LEN
  value : ∀ p ∈ obj.binProps, p.2 ≠ .symbol
  count : obj.binProps.length < 2 ^ 16

/-! ### One bin -/

section
variable {v : JsValue} {a : AsVal}

/-- A bin gets the native value of its value, whatever `asval_from_jsvalue` makes of it. -/
theorem binValue_some [Platform] : binValue v = .ok (some a) ↔ v ≠ .undefined ∧ v.asvalFromJsvalue = .ok a := by
  have hmap : ∀ {α : Type} (x : Res α) (f : α → AsVal),
      x.map (fun y => some (f y)) = .ok (some a) ↔ x.map f = .ok a := by
    intro α x f
    cases x with
    | error e => exact ⟨nofun, nofun⟩
    | ok y => simp [Except.map]
  cases v with
  | undefined => exact ⟨nofun, fun h => absurd rfl h.1⟩
  | symbol => exact ⟨nofun, fun h => nomatch h.2⟩
  | bigint i => simp only [binValue, JsValue.asvalFromJsvalue, hmap, ne_eq, reduceCtorEq, not_false_eq_true, true_and]
  | array xs => simp only [binValue, JsValue.asvalFromJsvalue, hmap, ne_eq, reduceCtorEq, not_false_eq_true, true_and]
  | map es => simp only [binValue, JsValue.asvalFromJsvalue, hmap, ne_eq, reduceCtorEq, not_false_eq_true, true_and]
  | obj cls ps =>
    simp only [binValue, JsValue.asvalFromJsvalue, ne_eq, reduceCtorEq, not_false_eq_true, true_and]
    split_ifs
    · exact hmap _ _
    · simp
    · exact hmap _ _
  | _ => simp [binValue, JsValue.asvalFromJsvalue]

theorem binValue_none [Platform] : binValue v = .ok none ↔ v = .symbol := by
  have hmap : ∀ {α : Type} (x : Res α) (f : α → AsVal), x.map (fun y => some (f y)) ≠ .ok none := by
    intro α x f
    cases x <;> exact nofun
  cases v with
  | symbol => exact ⟨fun _ => rfl, fun _ => rfl⟩
  | obj cls ps =>
    refine ⟨fun h => absurd h ?_, nofun⟩
    rw [binValue]
    split_ifs
    · exact hmap _ _
    · exact nofun
    · exact hmap _ _
  | bigint i => exact ⟨fun h => absurd h (hmap _ _), nofun⟩
  | array xs => exact ⟨fun h => absurd h (hmap _ _), nofun⟩
  | map es => exact ⟨fun h => absurd h (hmap _ _), nofun⟩
  | _ => exact ⟨nofun, nofun⟩

end

/-! ### The loop -/

/-- A converted property: nothing is set for a value that is skipped. -/
def AsRecord.put (r : AsRecord) (c : Bytes × Option AsVal) : AsRecord :=
  match c.2 with
  | some v => r.set c.1 v
  | none => r

/-- What the loop makes of a property. -/
def PutOf [Platform] (p : JsString × JsValue) (c : Bytes × Option AsVal) : Prop :=
  c.1 = nativeStr p.1 ∧ c.1.length ≤ AS_BIN_NAME_MAX_SIZE ∧ binValue p.2 = .ok c.2

theorem setBins_ok [Platform] {ps : Props} {rec rec' : AsRecord} : setBins rec ps = .ok rec' ↔
    ∃ cs : List (Bytes × Option AsVal), rec' = cs.foldl AsRecord.put rec ∧ List.Forall₂ PutOf ps cs := by
  induction ps generalizing rec with
  | nil =>
    rw [setBins, Except.ok.injEq]
    constructor
    · rintro rfl
      exact ⟨[], rfl, .nil⟩
    · rintro ⟨cs, rfl, hcs⟩
      rw [List.forall₂_nil_left_iff] at hcs
      rw [hcs, List.foldl_nil]
  | cons p ps ih =>
    obtain ⟨name, value⟩ := p
    rw [setBins]
    constructor
    · intro h
      split_ifs at h with hlen
      obtain ⟨v, hv, h⟩ := Except.bind_eq_ok.1 h
      obtain ⟨cs, rfl, hcs⟩ := ih.1 h
      refine ⟨(nativeStr name, v) :: cs, ?_, .cons ⟨rfl, Nat.le_of_not_lt hlen, hv⟩ hcs⟩
      cases v <;> rfl
    · rintro ⟨cs, rfl, hcs⟩
      rcases hcs with _ | @⟨_, ⟨n, v⟩, _, cs, ⟨hn, hlen, hv⟩, hcs⟩
      obtain rfl : n = nativeStr name := hn
      rw [if_neg (Nat.not_lt.2 hlen), show binValue value = .ok v from hv]
      refine ih.2 ⟨cs, ?_, hcs⟩
      cases v <;> rfl

theorem setBins_abort [Platform] {ps : Props} {rec : AsRecord} : setBins rec ps = .error .abort ↔
    ∃ pre p post, ps = pre ++ p :: post ∧ (∀ q ∈ pre, BinAccepted q) ∧
      (nativeStr p.1).length ≤ AS_BIN_NAME_MAX_SIZE ∧ binValue p.2 = .error .abort := by
  induction ps generalizing rec with
  | nil =>
    refine iff_of_false (fun h => by cases h) ?_
    rintro ⟨pre, p, post, hsplit, -⟩
    cases pre <;> cases hsplit
  | cons p ps ih =>
    obtain ⟨name, value⟩ := p
    rw [setBins]
    split_ifs with hlen
    · refine iff_of_false (fun h => by cases h) ?_
      rintro ⟨pre, p, post, hsplit, hpre, hname, -⟩
      cases pre with
      | nil =>
        cases hsplit
        exact absurd hlen (Nat.not_lt.mpr hname)
      | cons q pre =>
        cases hsplit
        exact absurd hlen (Nat.not_lt.mpr (hpre _ List.mem_cons_self).1)
    cases hv : binValue value with
    | error e =>
      constructor
      · intro h
        cases h
        exact ⟨[], (name, value), ps, rfl, fun q hq => absurd hq List.not_mem_nil, Nat.le_of_not_lt hlen, hv⟩
      · rintro ⟨pre, p, post, hsplit, hpre, -, habort⟩
        cases pre with
        | nil =>
          cases hsplit
          exact hv.symm.trans habort ▸ rfl
        | cons q pre =>
          cases hsplit
          obtain ⟨-, v, hok⟩ := hpre _ List.mem_cons_self
          cases hv.symm.trans hok
    | ok v =>
      refine ih.trans ⟨?_, ?_⟩
      · rintro ⟨pre, p, post, rfl, hpre, hp⟩
        refine ⟨(name, value) :: pre, p, post, rfl, fun q hq => ?_, hp⟩
        rcases List.mem_cons.mp hq with rfl | hq
        · exact ⟨Nat.le_of_not_lt hlen, v, hv⟩
        · exact hpre q hq
      · rintro ⟨pre, p, post, hsplit, hpre, hname, habort⟩
        cases pre with
        | nil =>
          cases hsplit
          cases hv.symm.trans habort
        | cons q pre =>
          cases hsplit
          exact ⟨pre, p, post, rfl, fun r hr => hpre r (List.mem_cons_of_mem _ hr), hname, habort⟩

/-- Setting bins one after the other leaves the capacity, and adds no names but theirs. -/
theorem foldl_put (cs : List (Bytes × Option AsVal)) (rec : AsRecord) :
    (cs.foldl AsRecord.put rec).capacity = rec.capacity ∧
      ∀ name ∈ (cs.foldl AsRecord.put rec).bins.map Prod.fst,
        name ∈ rec.bins.map Prod.fst ∨ name ∈ cs.map Prod.fst := by
  induction cs generalizing rec with
  | nil => exact ⟨rfl, fun _ => .inl⟩
  | cons c cs ih =>
    obtain ⟨hcap, hnames⟩ := ih (rec.put c)
    rw [List.foldl_cons]
    constructor
    · rw [hcap, AsRecord.put]
      split
      · exact rec.capacity_set _ _
      · rfl
    · intro name hm
      rcases hnames name hm with hm | hm
      · rw [AsRecord.put] at hm
        split at hm
        · rcases AsRecord.mem_names_set hm with hm | rfl
          · exact .inl hm
          · exact .inr (.head _)
        · exact .inl hm
      · exact .inr (.tail _ hm)

theorem foldl_put_new {bs : List (Bytes × AsVal)} {rec : AsRecord}
    (hn : ((rec.bins ++ bs).map Prod.fst).Nodup) (hlen : ∀ b ∈ bs, b.1.length ≤ AS_BIN_NAME_MAX_LEN)
    (hroom : rec.bins.length + bs.length ≤ rec.capacity) :
    ((bs.map fun b => (b.1, some b.2)).foldl AsRecord.put rec).bins = rec.bins ++ bs := by
  induction bs generalizing rec with
  | nil => simp
  | cons b bs ih =>
    have hassoc : rec.bins ++ b :: bs = (rec.bins ++ [b]) ++ bs := by simp
    have hnew : b.1 ∉ rec.bins.map Prod.fst := by
      rw [List.map_append, List.map_cons] at hn
      exact fun hm => (List.nodup_append.1 hn).2.2 _ hm _ (.head _) rfl
    rw [List.length_cons] at hroom
    have hset := AsRecord.set_new (v := b.2) (hlen b (.head _)) hnew (by omega)
    rw [hassoc] at hn ⊢
    rw [← hset] at hn ⊢
    refine ih hn (fun b' hb' => hlen b' (.tail _ hb')) ?_
    show (rec.set b.1 b.2).bins.length + bs.length ≤ (rec.set b.1 b.2).capacity
    rw [hset, AsRecord.capacity_set, List.length_append, List.length_singleton]
    omega

/-- Clean names and values that are not skipped make a bin of each property. -/
theorem bins_of_puts [Platform] {ps : Props} {cs : List (Bytes × Option AsVal)} (hcs : List.Forall₂ PutOf ps cs)
    (hname : ∀ p ∈ ps, p.1.Clean ∧ p.1.utf8.length ≤ AS_BIN_NAME_MAX_LEN)
    (hvalue : ∀ p ∈ ps, p.2 ≠ .symbol) :
    ∃ bs : List (Bytes × AsVal), cs = bs.map (fun b => (b.1, some b.2)) ∧ List.Forall₂ BinOf ps bs := by
  induction hcs with
  | nil => exact ⟨[], rfl, .nil⟩
  | @cons p c ps cs hpc _ ih =>
    obtain ⟨bs, rfl, hbs⟩ := ih (fun q hq => hname q (.tail _ hq)) fun q hq => hvalue q (.tail _ hq)
    obtain ⟨n, v⟩ := c
    obtain ⟨hn, -, hv⟩ := hpc
    cases v with
    | none => exact absurd (binValue_none.1 hv) (hvalue p (.head _))
    | some v =>
      have hclean := (hname p (.head _)).1
      refine ⟨(n, v) :: bs, rfl, .cons ⟨hclean.1, ?_, (binValue_some.1 hv).2⟩ hbs⟩
      exact hn.trans (JsString.cstr_eq_self.2 hclean.2)

theorem names_of_bins [Platform] {ps : Props} {bs : List (Bytes × AsVal)} (h : List.Forall₂ BinOf ps bs) :
    bs.map Prod.fst = ps.map fun p => p.1.utf8 := by
  induction h with
  | nil => rfl
  | cons hpb _ ih => rw [List.map_cons, List.map_cons, ih, hpb.2.1]

/-! ### The record -/

section
variable {obj : JsObject}

theorem recordbinsFromJsobject_ok [Platform] {rec : AsRecord} : recordbinsFromJsobject obj = .ok rec ↔
    ∃ cs, rec = cs.foldl AsRecord.put (.init obj.binProps.length) ∧ List.Forall₂ PutOf obj.binProps cs :=
  setBins_ok

theorem binsAccepted_iff [Platform] : BinsAccepted obj ↔ ∃ rec, recordbinsFromJsobject obj = .ok rec := by
  constructor
  · intro h
    obtain ⟨cs, hcs⟩ : ∃ cs, List.Forall₂ PutOf obj.binProps cs := by
      rw [BinsAccepted] at h
      generalize obj.binProps = ps at h
      induction ps with
      | nil => exact ⟨[], .nil⟩
      | cons p ps ih =>
        obtain ⟨hlen, v, hv⟩ := h p (.head _)
        obtain ⟨cs, hcs⟩ := ih fun q hq => h q (.tail _ hq)
        exact ⟨(nativeStr p.1, v) :: cs, .cons ⟨rfl, hlen, hv⟩ hcs⟩
    exact ⟨_, recordbinsFromJsobject_ok.2 ⟨cs, rfl, hcs⟩⟩
  · rintro ⟨rec, h⟩ p hp
    obtain ⟨cs, -, hcs⟩ := recordbinsFromJsobject_ok.1 h
    obtain ⟨c, -, hname, hlen, hv⟩ := hcs.exists_mem hp
    exact ⟨hname ▸ hlen, c.2, hv⟩

theorem nodup_binProps : (obj.binProps.map Prod.fst).Nodup := by
  rw [JsObject.binProps]
  split_ifs
  · rw [JsValue.setProperty]
    split
    · exact List.nodup_nil
    · split_ifs
      · exact List.nodup_nil
      · exact List.nodup_singleton _
  · exact obj.nodup

/-- The bins meant are the properties the loop goes over, unless a `Bin` has no name that can be set. -/
theorem binProps_eq {bins : Props} (h : obj.bins = some bins) : obj.binProps = bins ∨
    obj.toJs.isBinValue = true ∧ bins.length = 1 ∧ obj.binProps = [] ∧
      (obj.toJs.get (JsString.lit "name")).toPropertyKey = some JsValue.PROTO := by
  rw [JsObject.bins] at h
  rw [JsObject.binProps]
  split_ifs at h ⊢ with hb
  · obtain ⟨name, hname, rfl⟩ := Option.map_eq_some_iff.1 h
    rw [JsValue.setProperty, hname]
    by_cases hp : name = JsValue.PROTO
    · exact .inr ⟨hb, rfl, if_pos hp, by rw [hp]⟩
    · exact .inl (if_neg hp)
  · exact .inl (Option.some.inj h)

theorem stores_of_fits [Platform] (h : FitsRecord obj) {rec : AsRecord}
    (hrec : recordbinsFromJsobject obj = .ok rec) : ∃ bins, obj.bins = some bins ∧ rec.Stores bins := by
  have hbins : obj.bins = some obj.binProps := by
    rw [JsObject.bins, JsObject.binProps]
    split_ifs with hb
    · obtain ⟨name, hname, hne⟩ := h.named hb
      rw [JsValue.setProperty, hname, Option.map_some]
      exact congrArg some (if_neg hne).symm
    · rfl
  refine ⟨_, hbins, ?_⟩
  obtain ⟨cs, rfl, hcs⟩ := recordbinsFromJsobject_ok.1 hrec
  obtain ⟨bs, rfl, hbs⟩ := bins_of_puts hcs h.name h.value
  have hlen : bs.length = obj.binProps.length := hbs.length_eq.symm
  have hnames := names_of_bins hbs
  have hnodup : (bs.map Prod.fst).Nodup := by
    rw [hnames]
    show (obj.binProps.map (JsString.utf8 ∘ Prod.fst)).Nodup
    rw [← List.map_map]
    refine List.Nodup.map_on (fun s hs t ht hst => ?_) nodup_binProps
    obtain ⟨p, hp, rfl⟩ := List.mem_map.1 hs
    obtain ⟨q, hq, rfl⟩ := List.mem_map.1 ht
    exact JsString.utf8_inj (h.name p hp).1.1 (h.name q hq).1.1 hst
  have hstored : ((bs.map fun b => (b.1, some b.2)).foldl AsRecord.put (.init obj.binProps.length)).bins =
      bs := foldl_put_new hnodup ?_ ?_
  · exact ⟨bs, by rw [hstored], hbs⟩
  · intro b hb
    obtain ⟨p, hp, hpb⟩ : ∃ p ∈ obj.binProps, p.1.utf8 = b.1 := by
      have := Assoc.key_mem hb
      rw [hnames] at this
      exact List.mem_map.1 this
    exact hpb ▸ (h.name p hp).2
  · have := h.count
    show [].length + bs.length ≤ obj.binProps.length % 2 ^ 16
    rw [hlen, Nat.mod_eq_of_lt this, List.length_nil, Nat.zero_add]

theorem fits_of_stores [Platform] {rec : AsRecord} {bins : Props} (hrec : recordbinsFromJsobject obj = .ok rec)
    (hbins : obj.bins = some bins) (h : rec.Stores bins) : FitsRecord obj := by
  obtain ⟨bs, hperm, hbs⟩ := h
  obtain ⟨cs, rfl, hcs⟩ := recordbinsFromJsobject_ok.1 hrec
  obtain ⟨hcap, hnames⟩ := foldl_put cs (.init obj.binProps.length)
  have hlen : bins.length = (cs.foldl AsRecord.put (.init obj.binProps.length)).bins.length :=
    hbs.length_eq.trans hperm.length_eq
  rcases binProps_eq hbins with rfl | ⟨-, hone, hnil, -⟩
  · refine ⟨?_, fun p hp => ?_, fun p hp => ?_, ?_⟩
    · intro hb
      rw [JsObject.bins, if_pos hb] at hbins
      obtain ⟨name, hname, he⟩ := Option.map_eq_some_iff.1 hbins
      refine ⟨name, hname, fun hp => ?_⟩
      rw [JsObject.binProps, if_pos hb, JsValue.setProperty, hname] at he
      simp only [if_pos hp] at he
      cases he
    · obtain ⟨b, hb, hwf, hbname, -⟩ := hbs.exists_mem hp
      have hmem := hperm.mem_iff.1 hb
      have h0 : 0 ∉ b.1 := by
        rcases hnames _ (Assoc.key_mem hmem) with hm | hm
        · cases hm
        · obtain ⟨c, hc, hcb⟩ := List.mem_map.1 hm
          obtain ⟨q, -, hq, -⟩ := hcs.flip.exists_mem hc
          rw [← hcb, show c.1 = nativeStr q.1 from hq]
          exact JsString.zero_not_mem_cstr _
      rw [hbname] at h0
      exact ⟨⟨hwf, h0⟩, hbname ▸ AsRecord.name_le _ b hmem⟩
    · obtain ⟨b, -, -, -, hv⟩ := hbs.exists_mem hp
      intro hs
      rw [hs] at hv
      cases hv
    · have hroom := (cs.foldl AsRecord.put (.init obj.binProps.length)).room
      rw [← hlen, hcap] at hroom
      have hmod : obj.binProps.length ≤ obj.binProps.length % 2 ^ 16 := hroom
      have := Nat.mod_lt obj.binProps.length (show 0 < 2 ^ 16 by norm_num)
      omega
  · rw [hnil, List.forall₂_nil_left_iff] at hcs
    rw [hone, hcs, List.foldl_nil] at hlen
    cases hlen

/-- Only the client's own class is taken for a `Bin`, accepted bins are stored one for one and others are rejected
with an error, exactly when no other class has a name that starts with `Bin`, no value that V8 does not survive is
converted and, of an object that is accepted, the bins fit: clean names of at most 15 bytes, no symbols, at most
65535 bins, and a `Bin` that is not named `__proto__`. -/
theorem binsFaithful_iff [Platform] (obj : JsObject) : BinsFaithful obj ↔
    (obj.toJs.isBinValue → obj.cls.wrapper = some .bin) ∧ ¬BinsAbort obj ∧ (BinsAccepted obj → FitsRecord obj) := by
  rw [binsAccepted_iff]
  constructor
  · rintro ⟨hown, hrejects, hstores⟩
    refine ⟨hown, mt setBins_abort.mpr hrejects, ?_⟩
    rintro ⟨rec, hrec⟩
    obtain ⟨bins, hbins, hs⟩ := hstores rec hrec
    exact fits_of_stores hrec hbins hs
  · rintro ⟨hown, habort, hfits⟩
    exact ⟨hown, mt setBins_abort.mp habort, fun rec hrec => stores_of_fits (hfits ⟨rec, hrec⟩) hrec⟩

end

open Platform

/-- `{ abcdefghijklmnop: 1n }`: a name of 16 bytes is accepted, and its bin is not stored. -/
theorem long_bin_name_lost : ¬ ∀ obj : JsObject, BinsFaithful obj := by
  intro h
  let obj : JsObject := ⟨JsValue.plainClass, [(JsString.lit "abcdefghijklmnop", .bigint 1)],
    List.nodup_singleton _⟩
  obtain ⟨bins, hbins, bs, hperm, hbs⟩ := (h obj).stores (.init 1) (by rfl)
  obtain rfl : obj.props = bins := by
    have : obj.toJs.isBinValue = false := by decide
    rw [JsObject.bins, this] at hbins
    exact Option.some.inj hbins
  have hlen := hbs.length_eq.trans hperm.length_eq
  cases hlen

end AerospikeNode

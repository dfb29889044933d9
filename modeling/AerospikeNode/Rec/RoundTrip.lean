import AerospikeNode.Batch.Clone
import AerospikeNode.Native.RoundTrip
import AerospikeNode.Rec.Key

/-!
# A record written and read back

`recordbins_from_jsobject` makes the `as_record` of a put, `recordbins_to_jsobject` the object of a get. In
between a server keeps the bins, in an order of its own.

`record_roundTrip_iff`: which objects come back with the bins they stand for, each in its normal form.
-/

namespace AerospikeNode

open JsValue

variable {le : AsVal → AsVal → Bool} {obj : JsObject}

/-- The object read back has the bins of the one that was written, in their normal forms. -/
def Returns (le : AsVal → AsVal → Bool) (obj : JsObject) (stored : List (Bytes × AsVal)) : Prop :=
  ∃ bins qs, obj.bins = some bins ∧ normalProps bins = some qs ∧ Same (recordbinsToJsobject le stored) (plain qs)

/-- Properties that are set in any order, each to the value of one that is wanted. -/
theorem same_foldl {es es' : List (JsValue × JsValue)} {qs : Props} (hperm : es'.Perm es)
    (h : List.Forall₂ (fun e q => e.1.toPropertyKey = some q.1 ∧ Same e.2 q.2) es qs)
    (hnd : (qs.map Prod.fst).Nodup) (hproto : PROTO ∉ qs.map Prod.fst) :
    Same (plain (es'.foldl (fun ps e => setProperty ps e.1 e.2) [])) (plain qs) := by
  obtain ⟨bs, hbs, hnames, hvals⟩ : ∃ bs : Props,
      List.Forall₂ (fun e b => e.1.toPropertyKey = some b.1 ∧ e.2 = b.2) es bs ∧
        bs.map Prod.fst = qs.map Prod.fst ∧ List.Forall₂ Same (bs.map Prod.snd) (qs.map Prod.snd) := by
    clear hperm hnd hproto
    induction h with
    | nil => exact ⟨[], .nil, rfl, .nil⟩
    | @cons e q es qs heq _ ih =>
      obtain ⟨bs, hbs, hnames, hvals⟩ := ih
      exact ⟨(q.1, e.2) :: bs, .cons ⟨heq.1, rfl⟩ hbs, by rw [List.map_cons, List.map_cons, hnames],
        .cons heq.2 hvals⟩
  obtain ⟨bs', hbs', hpb⟩ := List.perm_comp_forall₂ hperm hbs
  have hnames' := hpb.map Prod.fst
  rw [hnames] at hnames'
  rw [foldl_setProperty hbs' (mt hnames'.mem_iff.1 hproto),
    Assoc.foldl_set_of_nodup (by rw [List.nil_append]; exact hnames'.nodup_iff.2 hnd), List.nil_append]
  exact .plain hpb hnames hvals

theorem recordbinsToJsobject_eq (stored : List (Bytes × AsVal)) :
    recordbinsToJsobject le stored = .plain ((stored.map fun b => (ofCString b.1, b.2.toJsvalue le)).foldl
      (fun ps e => setProperty ps e.1 e.2) []) := by
  rw [recordbinsToJsobject, List.foldl_map]

/-- What is accepted has a native value for each bin. -/
theorem accepted_value [Platform] (hd : ∀ p ∈ obj.binProps, IsData p.2) {rec : AsRecord}
    (hrec : recordbinsFromJsobject obj = .ok rec) {p : JsString × JsValue} (hp : p ∈ obj.binProps) :
    ∃ a, p.2.asvalFromJsvalue = .ok a := by
  obtain ⟨-, o, ho⟩ := binsAccepted_iff.2 ⟨rec, hrec⟩ p hp
  cases o with
  | some a => exact ⟨a, (binValue_some.1 ho).2⟩
  | none =>
    have hdata := hd p hp
    rw [binValue_none.1 ho] at hdata
    cases hdata

/-- The bins of a record that holds them as they are come back in whatever order they are stored. -/
theorem returns_of_fits [Platform] (h : FitsRecord obj) {rec : AsRecord} (hrec : recordbinsFromJsobject obj = .ok rec)
    {stored : List (Bytes × AsVal)} (hstored : stored.Perm rec.bins)
    (hkept : ∀ p ∈ obj.binProps, p.1 ≠ PROTO ∧ RoundTrip le p.2) : Returns le obj stored := by
  obtain ⟨bins, hbins, bs, hperm, hbs⟩ := stores_of_fits h hrec
  obtain rfl : obj.binProps = bins := by
    rcases binProps_eq hbins with he | ⟨hb, -, -, hproto⟩
    · exact he
    · obtain ⟨name, hname, hne⟩ := h.named hb
      rw [hproto, Option.some.injEq] at hname
      exact absurd hname.symm hne
  obtain ⟨qs, hqs, hes⟩ : ∃ qs, normalProps obj.binProps = some qs ∧
      List.Forall₂ (fun e q => e.1.toPropertyKey = some q.1 ∧ Same e.2 q.2)
        (bs.map fun b => (ofCString b.1, b.2.toJsvalue le)) qs := by
    have hname := h.name
    clear hperm hbins
    generalize obj.binProps = ps at hbs hkept hname
    induction hbs with
    | nil => exact ⟨[], rfl, .nil⟩
    | @cons p b ps bs hb _ ih =>
      obtain ⟨n, hn, hs⟩ := (hkept p (.head _)).2 b.2 hb.2.2
      obtain ⟨qs, hqs, hes⟩ := ih (fun q hq => hkept q (.tail _ hq)) fun q hq => hname q (.tail _ hq)
      refine ⟨(p.1, n) :: qs, ?_, .cons ⟨?_, hs⟩ hes⟩
      · rw [normalProps, hn, hqs]
        rfl
      · have hclean := (hname p (.head _)).1
        show (ofCString b.1).toPropertyKey = some p.1
        rw [hb.2.1, ← (utf8Of_nativeStr.2 hclean).2, ofCString_nativeStr, toPropertyKey,
          JsString.clean_eq_self.2 hclean]
  have hnames := names_normalProps hqs
  refine ⟨_, qs, hbins, hqs, ?_⟩
  rw [recordbinsToJsobject_eq]
  refine same_foldl ((hstored.trans hperm.symm).map _) hes ?_ ?_
  · rw [hnames]
    exact nodup_binProps
  · rw [hnames]
    intro hm
    obtain ⟨p, hp, he⟩ := List.mem_map.1 hm
    exact (hkept p hp).1 he

/-- The names of the bins are those of properties, as they are converted. -/
theorem mem_bins_name [Platform] {rec : AsRecord} (hrec : recordbinsFromJsobject obj = .ok rec) {b : Bytes × AsVal}
    (hb : b ∈ rec.bins) : ∃ p ∈ obj.binProps, b.1 = nativeStr p.1 := by
  obtain ⟨cs, rfl, hcs⟩ := recordbinsFromJsobject_ok.1 hrec
  rcases (foldl_put cs (.init obj.binProps.length)).2 _ (Assoc.key_mem hb) with hm | hm
  · cases hm
  · obtain ⟨c, hc, hcb⟩ := List.mem_map.1 hm
    obtain ⟨p, hp, hname, -⟩ := hcs.flip.exists_mem hc
    exact ⟨p, hp, hcb ▸ hname⟩

/-- An object whose bins all come back was stored as it is. -/
theorem fits_of_returns [Platform] (hd : ∀ p ∈ obj.binProps, IsData p.2) {rec : AsRecord}
    (hrec : recordbinsFromJsobject obj = .ok rec) {stored : List (Bytes × AsVal)} (hstored : stored.Perm rec.bins)
    (h : Returns le obj stored) : FitsRecord obj ∧ ∀ p ∈ obj.binProps, p.1 ≠ PROTO := by
  obtain ⟨bins, qs, hbins, hqs, hs⟩ := h
  rw [recordbinsToJsobject_eq] at hs
  -- a name comes back only as that of a bin, which is that of a property
  have hback : ∀ p ∈ bins, p.1 ≠ PROTO ∧ ∃ b ∈ rec.bins, ∃ q ∈ obj.binProps, b.1 = nativeStr q.1 ∧ p.1 = q.1.clean := by
    intro p hp
    have hname : p.1 ∈ qs.map Prod.fst := by
      rw [names_normalProps hqs]
      exact Assoc.key_mem hp
    rcases mem_keys_foldl_setProperty (hs.names_perm.mem_iff.2 hname) with hm | ⟨hne, e, he, hkey⟩
    · cases hm
    · obtain ⟨b, hb, rfl⟩ := List.mem_map.1 he
      have hb := hstored.mem_iff.1 hb
      obtain ⟨q, hq, hbq⟩ := mem_bins_name hrec hb
      rw [hbq, ofCString_nativeStr, toPropertyKey, Option.some.injEq] at hkey
      exact ⟨hne, b, hb, q, hq, hbq, hkey.symm⟩
  rcases binProps_eq hbins with rfl | ⟨-, hone, hnil, -⟩
  · have hclean : ∀ p ∈ obj.binProps, p.1.Clean := fun p hp => by
      obtain ⟨-, -, -, q, -, -, he⟩ := hback p hp
      exact he ▸ JsString.clean_clean _
    have hbin : ∀ p ∈ obj.binProps, ∃ b ∈ rec.bins, b.1 = p.1.utf8 := fun p hp => by
      obtain ⟨-, b, hb, q, hq, hbq, he⟩ := hback p hp
      rw [JsString.clean_eq_self.2 (hclean q hq)] at he
      exact ⟨b, hb, by rw [hbq, he, ← (utf8Of_nativeStr.2 (hclean q hq)).2]⟩
    have hnames : (obj.binProps.map fun p => p.1.utf8).Nodup := by
      show (obj.binProps.map (JsString.utf8 ∘ Prod.fst)).Nodup
      rw [← List.map_map]
      refine List.Nodup.map_on (fun s hs t ht hst => ?_) nodup_binProps
      obtain ⟨p, hp, rfl⟩ := List.mem_map.1 hs
      obtain ⟨q, hq, rfl⟩ := List.mem_map.1 ht
      exact JsString.utf8_inj (hclean p hp).1 (hclean q hq).1 hst
    have hle : obj.binProps.length ≤ rec.bins.length := by
      have hsub : (obj.binProps.map fun p => p.1.utf8).Subperm (rec.bins.map Prod.fst) :=
          List.subperm_of_subset hnames fun name hm => by
        obtain ⟨p, hp, rfl⟩ := List.mem_map.1 hm
        obtain ⟨b, hb, he⟩ := hbin p hp
        exact he ▸ Assoc.key_mem hb
      simpa using hsub.length_le
    refine ⟨⟨fun hb => ?_, fun p hp => ⟨hclean p hp, ?_⟩, fun p hp hsym => ?_, ?_⟩, fun p hp => (hback p hp).1⟩
    · rw [JsObject.bins, if_pos hb] at hbins
      obtain ⟨name, hname, he⟩ := Option.map_eq_some_iff.1 hbins
      exact ⟨name, hname, (hback (name, obj.toJs.get (JsString.lit "value")) (he ▸ List.mem_singleton_self _)).1⟩
    · obtain ⟨b, hb, he⟩ := hbin p hp
      exact he ▸ rec.name_le b hb
    · have hdata := hd p hp
      rw [hsym] at hdata
      cases hdata
    · obtain ⟨cs, rfl, -⟩ := recordbinsFromJsobject_ok.1 hrec
      have hroom := (cs.foldl AsRecord.put (.init obj.binProps.length)).room
      rw [(foldl_put cs (.init obj.binProps.length)).1] at hroom
      have hroom : _ ≤ obj.binProps.length % 2 ^ 16 := hroom
      have := Nat.mod_lt obj.binProps.length (show 0 < 2 ^ 16 by norm_num)
      omega
  · obtain ⟨p, rfl⟩ := List.length_eq_one_iff.1 hone
    obtain ⟨-, -, -, q, hq, -⟩ := hback p (List.mem_singleton_self p)
    rw [hnil] at hq
    cases hq

/-- A record that is accepted comes back with its bins, and every part of their values with them, in whatever
order the server keeps the bins, exactly when the record holds the bins as they are, none of them is
`__proto__`, and nothing is lost at a part of a value. -/
theorem record_roundTrip_iff [Platform] (le : AsVal → AsVal → Bool) {obj : JsObject}
    (hd : ∀ p ∈ obj.binProps, IsData p.2)
    {rec : AsRecord} (hrec : recordbinsFromJsobject obj = .ok rec) {stored : List (Bytes × AsVal)}
    (hstored : stored.Perm rec.bins) :
    (Returns le obj stored ∧ ∀ p ∈ obj.binProps, ∀ w, Part w p.2 → JsValue.RoundTrip le w) ↔
      FitsRecord obj ∧ ∀ p ∈ obj.binProps, p.1 ≠ PROTO ∧ ∀ w, Part w p.2 → Kept w := by
  have hparts : ∀ p ∈ obj.binProps,
      (∀ w, Part w p.2 → JsValue.RoundTrip le w) ↔ ∀ w, Part w p.2 → Kept w := fun p hp => by
    obtain ⟨a, ha⟩ := accepted_value hd hrec hp
    constructor
    · intro h w hw
      obtain ⟨hdw, b, hb⟩ := hw.accepted (hd p hp) ha
      exact kept_of_roundTrip hdw hb fun u hu => h u (hu.trans hw)
    · intro h w hw
      exact roundTrip_of_kept (hw.accepted (hd p hp) ha).1 fun u hu => h u (hu.trans hw)
  constructor
  · rintro ⟨hreturns, hvalues⟩
    obtain ⟨hfits, hproto⟩ := fits_of_returns hd hrec hstored hreturns
    exact ⟨hfits, fun p hp => ⟨hproto p hp, (hparts p hp).1 (hvalues p hp)⟩⟩
  · rintro ⟨hfits, hkept⟩
    have hvalues : ∀ p ∈ obj.binProps, ∀ w, Part w p.2 → JsValue.RoundTrip le w := fun p hp =>
      (hparts p hp).2 (hkept p hp).2
    exact ⟨returns_of_fits hfits hrec hstored fun p hp => ⟨(hkept p hp).1, hvalues p hp _ .refl⟩, hvalues⟩

open Platform

/-- `{ a: "x" }` comes back. -/
theorem text_bin_returns : Returns (fun _ _ => true) ⟨JsValue.plainClass, [(JsString.lit "a", .str (JsString.lit "x"))],
    List.nodup_singleton _⟩ [([97], .string [120])] := by
  let obj : JsObject := ⟨JsValue.plainClass, [(JsString.lit "a", .str (JsString.lit "x"))], List.nodup_singleton _⟩
  have hprops : ∀ p ∈ obj.binProps, p = (JsString.lit "a", .str (JsString.lit "x")) := fun p hp => by
    have hb : obj.toJs.isBinValue = false := by decide
    rw [JsObject.binProps, hb] at hp
    exact List.mem_singleton.1 hp
  have hrec : recordbinsFromJsobject obj = .ok ((AsRecord.init 1).set [97] (.string [120])) := by rfl
  have hd : ∀ p ∈ obj.binProps, IsData p.2 := fun p hp => hprops p hp ▸ .str _
  refine ((record_roundTrip_iff _ hd hrec (.refl _)).2 ⟨⟨?_, ?_, ?_, ?_⟩, ?_⟩).1
  · exact fun hb => absurd hb (by decide)
  · exact fun p hp => hprops p hp ▸ (by decide)
  · intro p hp
    rw [hprops p hp]
    simp
  · decide
  · intro p hp
    rw [hprops p hp]
    refine ⟨by decide, fun w hw => ?_⟩
    cases hw
    show JsString.Clean (JsString.lit "x")
    decide

end AerospikeNode

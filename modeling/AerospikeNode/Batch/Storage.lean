import AerospikeNode.Batch.Clone

/-!
# The storage of clones

`asval_clone`, `key_clone` and `record_clone` (`src/main/util/conversions.cc`) over values as they lie in
memory. `MemVal ℕ` is a value with the addresses of its blocks, `MemVal Unit` what it denotes. The next
address that is not in use is threaded through the functions.

A clone never shares a block with what it was made of (`clones_iff`). It denotes the same value where every
string can be copied by `cf_strdup` and every blob is of the type that `as_bytes_new_wrap` gives it.
-/

namespace AerospikeNode

/-- Particle types of an `as_bytes`. -/
def AS_BYTES_BLOB : ℕ := 4
def AS_BYTES_HLL : ℕ := 18

/-- The types of value that `asval_clone` has a case for. A value has a block of its own, but for the static
`as_nil`; a string, a blob, a list or a map has another one for its content. -/
inductive MemVal (α : Type) where
  | nil
  | boolean (block : α) (b : Bool)
  | integer (block : α) (i : Int64)
  | double (block : α) (d : JsNumber)
  | string (block text : α) (s : Bytes)
  | bytes (block value : α) (bs : Bytes) (type : ℕ)
  | list (block elements : α) (xs : List (MemVal α))
  | map (block table : α) (flags : UInt32) (es : List (MemVal α × MemVal α))
  | geojson (block text : α) (s : Bytes)

namespace MemVal

variable {α β : Type}

mutual
def relabel (f : α → β) : MemVal α → MemVal β
  | nil => nil
  | boolean block b => boolean (f block) b
  | integer block i => integer (f block) i
  | double block d => double (f block) d
  | string block text s => string (f block) (f text) s
  | bytes block value bs type => bytes (f block) (f value) bs type
  | list block elements xs => list (f block) (f elements) (relabelList f xs)
  | map block table flags es => map (f block) (f table) flags (relabelEntries f es)
  | geojson block text s => geojson (f block) (f text) s

def relabelList (f : α → β) : List (MemVal α) → List (MemVal β)
  | [] => []
  | x :: xs => relabel f x :: relabelList f xs

def relabelEntries (f : α → β) : List (MemVal α × MemVal α) → List (MemVal β × MemVal β)
  | [] => []
  | (k, v) :: es => (relabel f k, relabel f v) :: relabelEntries f es
end

/-- What the value is, wherever it lies. -/
def denote (v : MemVal α) : MemVal Unit := v.relabel fun _ => ()

mutual
/-- The blocks that are freed with the value. -/
def owned : MemVal α → List α
  | nil => []
  | boolean block _ => [block]
  | integer block _ => [block]
  | double block _ => [block]
  | string block text _ => [block, text]
  | bytes block value _ _ => [block, value]
  | list block elements xs => block :: elements :: ownedList xs
  | map block table _ es => block :: table :: ownedEntries es
  | geojson block text _ => [block, text]

def ownedList : List (MemVal α) → List α
  | [] => []
  | x :: xs => owned x ++ ownedList xs

def ownedEntries : List (MemVal α × MemVal α) → List α
  | [] => []
  | (k, v) :: es => owned k ++ owned v ++ ownedEntries es
end

mutual
/-- No text has a NUL in it, and blobs are plain blobs. -/
def Plain : MemVal α → Prop
  | string _ _ s => 0 ∉ s
  | geojson _ _ s => 0 ∉ s
  | bytes _ _ _ type => type = AS_BYTES_BLOB
  | list _ _ xs => PlainList xs
  | map _ _ _ es => PlainEntries es
  | _ => True

def PlainList : List (MemVal α) → Prop
  | [] => True
  | x :: xs => Plain x ∧ PlainList xs

def PlainEntries : List (MemVal α × MemVal α) → Prop
  | [] => True
  | (k, v) :: es => Plain k ∧ Plain v ∧ PlainEntries es
end

section
variable (cmp : MemVal Unit → MemVal Unit → Ordering)

/-- The keys of the entries are in the order of `as_val_cmp`. -/
def InOrder (e e' : MemVal α × MemVal α) : Prop := cmp e.1.denote e'.1.denote = .lt

mutual
/-- Every map is one that an `as_orderedmap` can be. -/
def Ordered : MemVal α → Prop
  | list _ _ xs => OrderedList xs
  | map _ _ _ es => OrderedEntries es ∧ es.Pairwise (InOrder cmp)
  | _ => True

def OrderedList : List (MemVal α) → Prop
  | [] => True
  | x :: xs => Ordered x ∧ OrderedList xs

def OrderedEntries : List (MemVal α × MemVal α) → Prop
  | [] => True
  | (k, v) :: es => Ordered k ∧ Ordered v ∧ OrderedEntries es
end

/-- `as_arraylist_set` of a list that has elements up to this index. -/
def arraylistSet (xs : List (MemVal α)) (index : ℕ) (v : MemVal α) : List (MemVal α) :=
  if index < xs.length then xs.set index v else xs ++ [v]

/-- `as_orderedmap_set` -/
def orderedmapSet : List (MemVal α × MemVal α) → MemVal α → MemVal α → List (MemVal α × MemVal α)
  | [], k, v => [(k, v)]
  | e :: es, k, v =>
    match cmp e.1.denote k.denote with
    | .lt => e :: orderedmapSet es k v
    | .eq => (k, v) :: es
    | .gt => (k, v) :: e :: es

mutual
/-- `asval_clone` -/
def clone : MemVal ℕ → ℕ → MemVal ℕ × ℕ
  | nil, next => (nil, next)
  | boolean _ b, next => (boolean next b, next + 1)
  | integer _ i, next => (integer next i, next + 1)
  | double _ d, next => (double next d, next + 1)
  | string _ _ s, next => (string (next + 1) next (JsString.cstr s), next + 2)
  | bytes _ _ bs _, next => (bytes (next + 1) next bs AS_BYTES_BLOB, next + 2)
  | list _ _ xs, next =>
    let ys := cloneList xs 0 [] (next + 2)
    (list next (next + 1) ys.1, ys.2)
  | map _ _ flags es, next =>
    let es' := cloneEntries es [] (next + 2)
    (map next (next + 1) flags es'.1, es'.2)
  | geojson _ _ s, next => (geojson (next + 1) next (JsString.cstr s), next + 2)

/-- The loop over the elements of a list; `acc` is the list that is being made. -/
def cloneList : List (MemVal ℕ) → ℕ → List (MemVal ℕ) → ℕ → List (MemVal ℕ) × ℕ
  | [], _, acc, next => (acc, next)
  | x :: xs, index, acc, next =>
    let y := clone x next
    cloneList xs (index + 1) (arraylistSet acc index y.1) y.2

/-- The loop over the entries of a map. -/
def cloneEntries : List (MemVal ℕ × MemVal ℕ) → List (MemVal ℕ × MemVal ℕ) → ℕ → List (MemVal ℕ × MemVal ℕ) × ℕ
  | [], acc, next => (acc, next)
  | (k, v) :: es, acc, next =>
    let k' := clone k next
    let v' := clone v k'.2
    cloneEntries es (orderedmapSet cmp acc k'.1 v'.1) v'.2
end

end

/-! ### What a value denotes -/

theorem relabelList_eq_map (f : α → β) (xs : List (MemVal α)) : relabelList f xs = xs.map (relabel f) := by
  induction xs with
  | nil => rw [relabelList, List.map_nil]
  | cons x xs ih => rw [relabelList, ih, List.map_cons]

theorem relabelEntries_eq_map (f : α → β) (es : List (MemVal α × MemVal α)) :
    relabelEntries f es = es.map fun e => (e.1.relabel f, e.2.relabel f) := by
  induction es with
  | nil => rw [relabelEntries, List.map_nil]
  | cons e es ih => rw [relabelEntries, ih, List.map_cons]

mutual
theorem plain_relabel (f : α → β) : ∀ v : MemVal α, (v.relabel f).Plain ↔ v.Plain
  | nil => Iff.rfl
  | boolean _ _ => Iff.rfl
  | integer _ _ => Iff.rfl
  | double _ _ => Iff.rfl
  | string _ _ _ => Iff.rfl
  | bytes _ _ _ _ => Iff.rfl
  | list _ _ xs => plain_relabelList f xs
  | map _ _ _ es => plain_relabelEntries f es
  | geojson _ _ _ => Iff.rfl

theorem plain_relabelList (f : α → β) : ∀ xs : List (MemVal α), PlainList (relabelList f xs) ↔ PlainList xs
  | [] => Iff.rfl
  | x :: xs => and_congr (plain_relabel f x) (plain_relabelList f xs)

theorem plain_relabelEntries (f : α → β) :
    ∀ es : List (MemVal α × MemVal α), PlainEntries (relabelEntries f es) ↔ PlainEntries es
  | [] => Iff.rfl
  | (k, v) :: es => and_congr (plain_relabel f k) (and_congr (plain_relabel f v) (plain_relabelEntries f es))
end

theorem plain_denote (v : MemVal α) : v.denote.Plain ↔ v.Plain := plain_relabel _ v

theorem plainList_iff {xs : List (MemVal α)} : PlainList xs ↔ ∀ x ∈ xs, x.Plain := by
  induction xs with
  | nil => exact iff_of_true trivial nofun
  | cons x xs ih => rw [PlainList, ih, List.forall_mem_cons]

theorem plainEntries_iff {es : List (MemVal α × MemVal α)} : PlainEntries es ↔ ∀ e ∈ es, e.1.Plain ∧ e.2.Plain := by
  induction es with
  | nil => exact iff_of_true trivial nofun
  | cons e es ih => rw [PlainEntries, ih, List.forall_mem_cons, and_assoc]

theorem ownedList_eq (xs : List (MemVal α)) : ownedList xs = xs.flatMap owned := by
  induction xs with
  | nil => rw [ownedList, List.flatMap_nil]
  | cons x xs ih => rw [ownedList, ih, List.flatMap_cons]

theorem ownedEntries_eq (es : List (MemVal α × MemVal α)) :
    ownedEntries es = es.flatMap fun e => e.1.owned ++ e.2.owned := by
  induction es with
  | nil => rw [ownedEntries, List.flatMap_nil]
  | cons e es ih => rw [ownedEntries, ih, List.flatMap_cons]

/-! ### What a clone is made of -/

theorem mem_arraylistSet {xs : List (MemVal α)} {index : ℕ} {v x : MemVal α} (h : x ∈ arraylistSet xs index v) :
    x ∈ xs ∨ x = v := by
  rw [arraylistSet] at h
  split_ifs at h
  · exact List.mem_or_eq_of_mem_set h
  · exact (List.mem_append.1 h).imp_right List.mem_singleton.1

theorem arraylistSet_length (xs : List (MemVal α)) (v : MemVal α) : arraylistSet xs xs.length v = xs ++ [v] :=
  if_neg (lt_irrefl _)

variable {cmp : MemVal Unit → MemVal Unit → Ordering}

theorem mem_orderedmapSet {es : List (MemVal α × MemVal α)} {k v : MemVal α} {e : MemVal α × MemVal α}
    (h : e ∈ orderedmapSet cmp es k v) : e ∈ es ∨ e = (k, v) := by
  induction es with
  | nil => exact .inr (List.mem_singleton.1 h)
  | cons e' es ih =>
    rw [orderedmapSet] at h
    split at h
    · rcases List.mem_cons.1 h with rfl | h
      · exact .inl (.head _)
      · exact (ih h).imp_left (.tail _)
    · rcases List.mem_cons.1 h with rfl | h
      · exact .inr rfl
      · exact .inl (.tail _ h)
    · rcases List.mem_cons.1 h with rfl | h
      · exact .inr rfl
      · exact .inl h

/-- A key that comes after all others is added at the end. -/
theorem orderedmapSet_last {es : List (MemVal α × MemVal α)} {k v : MemVal α}
    (h : ∀ e ∈ es, cmp e.1.denote k.denote = .lt) : orderedmapSet cmp es k v = es ++ [(k, v)] := by
  induction es with
  | nil => rfl
  | cons e es ih =>
    obtain ⟨he, hes⟩ := List.forall_mem_cons.1 h
    rw [orderedmapSet, he, ih hes, List.cons_append]

/-- A value that `asval_clone` can return: a plain one, in blocks from `lo` on and below `hi`. -/
structure Fresh (lo hi : ℕ) (v : MemVal ℕ) : Prop where
  plain : v.Plain
  within : ∀ a ∈ v.owned, lo ≤ a ∧ a < hi

theorem Fresh.mono {lo lo' hi hi' : ℕ} {v : MemVal ℕ} (h : Fresh lo hi v) (hlo : lo' ≤ lo) (hhi : hi ≤ hi') :
    Fresh lo' hi' v :=
  ⟨h.plain, fun a ha => ⟨hlo.trans (h.within a ha).1, (h.within a ha).2.trans_le hhi⟩⟩

theorem fresh_two {lo : ℕ} {v : MemVal ℕ} (hv : v.Plain) (howned : v.owned = [lo + 1, lo]) :
    lo ≤ lo + 2 ∧ Fresh lo (lo + 2) v := by
  refine ⟨by omega, hv, fun a ha => ?_⟩
  rw [howned, List.mem_cons, List.mem_singleton] at ha
  omega

theorem fresh_one {lo : ℕ} {v : MemVal ℕ} (hv : v.Plain) (howned : v.owned = [lo]) :
    lo ≤ lo + 1 ∧ Fresh lo (lo + 1) v := by
  refine ⟨by omega, hv, fun a ha => ?_⟩
  rw [howned, List.mem_singleton] at ha
  omega

variable (cmp)

mutual
theorem clone_fresh : ∀ (v : MemVal ℕ) (next : ℕ),
    next ≤ (clone cmp v next).2 ∧ Fresh next (clone cmp v next).2 (clone cmp v next).1
  | nil, next => ⟨le_rfl, trivial, nofun⟩
  | boolean _ _, _ => fresh_one trivial rfl
  | integer _ _, _ => fresh_one trivial rfl
  | double _ _, _ => fresh_one trivial rfl
  | string _ _ s, _ => fresh_two (JsString.zero_not_mem_cstr s) rfl
  | bytes _ _ _ _, _ => fresh_two rfl rfl
  | list _ _ xs, next => by
    obtain ⟨hle, hxs⟩ := cloneList_fresh xs 0 [] next (next + 2) (by omega) nofun
    rw [clone]
    refine ⟨by omega, plainList_iff.2 fun x hx => (hxs x hx).plain, fun a ha => ?_⟩
    change a ∈ _ :: _ :: ownedList _ at ha
    rw [ownedList_eq, List.mem_cons, List.mem_cons, List.mem_flatMap] at ha
    rcases ha with rfl | rfl | ⟨x, hx, ha⟩
    · exact ⟨le_rfl, by omega⟩
    · exact ⟨by omega, by omega⟩
    · exact (hxs x hx).within a ha
  | map _ _ flags es, next => by
    obtain ⟨hle, hes⟩ := cloneEntries_fresh es [] next (next + 2) (by omega) nofun
    rw [clone]
    refine ⟨by omega, plainEntries_iff.2 fun e he => ⟨(hes e he).1.plain, (hes e he).2.plain⟩, fun a ha => ?_⟩
    change a ∈ _ :: _ :: ownedEntries _ at ha
    rw [ownedEntries_eq, List.mem_cons, List.mem_cons, List.mem_flatMap] at ha
    rcases ha with rfl | rfl | ⟨e, he, ha⟩
    · exact ⟨le_rfl, by omega⟩
    · exact ⟨by omega, by omega⟩
    · rcases List.mem_append.1 ha with ha | ha
      · exact (hes e he).1.within a ha
      · exact (hes e he).2.within a ha
  | geojson _ _ s, _ => fresh_two (JsString.zero_not_mem_cstr s) rfl

theorem cloneList_fresh : ∀ (xs : List (MemVal ℕ)) (index : ℕ) (acc : List (MemVal ℕ)) (lo next : ℕ), lo ≤ next →
    (∀ x ∈ acc, Fresh lo next x) → next ≤ (cloneList cmp xs index acc next).2 ∧
      ∀ x ∈ (cloneList cmp xs index acc next).1, Fresh lo (cloneList cmp xs index acc next).2 x
  | [], _, _, _, _, _, hacc => ⟨le_rfl, hacc⟩
  | x :: xs, index, acc, lo, next, hlo, hacc => by
    obtain ⟨hle, hx⟩ := clone_fresh x next
    obtain ⟨hle', hxs⟩ := cloneList_fresh xs (index + 1) (arraylistSet acc index (clone cmp x next).1)
      lo (clone cmp x next).2 (hlo.trans hle) (fun y hy => by
        rcases mem_arraylistSet hy with hy | rfl
        · exact (hacc y hy).mono le_rfl hle
        · exact hx.mono hlo le_rfl)
    rw [cloneList]
    exact ⟨hle.trans hle', hxs⟩

theorem cloneEntries_fresh : ∀ (es acc : List (MemVal ℕ × MemVal ℕ)) (lo next : ℕ), lo ≤ next →
    (∀ e ∈ acc, Fresh lo next e.1 ∧ Fresh lo next e.2) → next ≤ (cloneEntries cmp es acc next).2 ∧
      ∀ e ∈ (cloneEntries cmp es acc next).1, Fresh lo (cloneEntries cmp es acc next).2 e.1 ∧
        Fresh lo (cloneEntries cmp es acc next).2 e.2
  | [], _, _, _, _, hacc => ⟨le_rfl, hacc⟩
  | (k, v) :: es, acc, lo, next, hlo, hacc => by
    obtain ⟨hlek, hk⟩ := clone_fresh k next
    obtain ⟨hlev, hv⟩ := clone_fresh v (clone cmp k next).2
    obtain ⟨hle, hes⟩ := cloneEntries_fresh es
      (orderedmapSet cmp acc (clone cmp k next).1 (clone cmp v (clone cmp k next).2).1)
      lo (clone cmp v (clone cmp k next).2).2 (by omega) (fun e he => by
        rcases mem_orderedmapSet he with he | rfl
        · exact ⟨(hacc e he).1.mono le_rfl (by omega), (hacc e he).2.mono le_rfl (by omega)⟩
        · exact ⟨hk.mono hlo hlev, hv.mono (by omega) le_rfl⟩)
    rw [cloneEntries]
    exact ⟨by omega, hes⟩
end

variable {cmp}

/-! ### What a clone denotes -/

theorem denote_list (block elements : α) (xs : List (MemVal α)) :
    (list block elements xs).denote = list () () (xs.map denote) :=
  congrArg (list () ()) (relabelList_eq_map _ xs)

theorem denote_map (block table : α) (flags : UInt32) (es : List (MemVal α × MemVal α)) :
    (map block table flags es).denote = map () () flags (es.map fun e => (e.1.denote, e.2.denote)) :=
  congrArg (map () () flags) (relabelEntries_eq_map _ es)

mutual
theorem denote_clone : ∀ {v : MemVal ℕ} (next : ℕ), v.Plain → v.Ordered cmp → (clone cmp v next).1.denote = v.denote
  | nil, _, _, _ => rfl
  | boolean _ _, _, _, _ => rfl
  | integer _ _, _, _, _ => rfl
  | double _ _, _, _, _ => rfl
  | string _ _ s, next, h, _ => by
    rw [clone, JsString.cstr_eq_self.2 h]
    rfl
  | bytes _ _ bs type, _, h, _ => by
    obtain rfl : type = AS_BYTES_BLOB := h
    rfl
  | list _ _ xs, next, h, ho => by
    have hxs : (cloneList cmp xs 0 [] (next + 2)).1.map denote = xs.map denote := denote_cloneList xs [] (next + 2) h ho
    rw [clone, denote_list, denote_list, hxs]
  | map _ _ flags es, next, h, ho => by
    have hes : (cloneEntries cmp es [] (next + 2)).1.map (fun e => (e.1.denote, e.2.denote)) =
        es.map fun e => (e.1.denote, e.2.denote) := denote_cloneEntries es [] (next + 2) h ho.1 ho.2 nofun
    rw [clone, denote_map, denote_map, hes]
  | geojson _ _ s, next, h, _ => by
    rw [clone, JsString.cstr_eq_self.2 h]
    rfl

theorem denote_cloneList : ∀ (xs acc : List (MemVal ℕ)) (next : ℕ), PlainList xs → OrderedList cmp xs →
    (cloneList cmp xs acc.length acc next).1.map denote = (acc ++ xs).map denote
  | [], acc, _, _, _ => by rw [cloneList, List.append_nil]
  | x :: xs, acc, next, h, ho => by
    have hlen : acc.length + 1 = (acc ++ [(clone cmp x next).1]).length := by
      rw [List.length_append, List.length_singleton]
    rw [cloneList, arraylistSet_length, hlen, denote_cloneList xs _ _ h.2 ho.2, List.map_append, List.map_append,
      List.map_singleton, denote_clone next h.1 ho.1, ← List.map_singleton, ← List.map_append, ← List.map_append,
      List.append_assoc, List.singleton_append]

theorem denote_cloneEntries : ∀ (es acc : List (MemVal ℕ × MemVal ℕ)) (next : ℕ),
    PlainEntries es → OrderedEntries cmp es →
    es.Pairwise (InOrder cmp) → (∀ a ∈ acc, ∀ e ∈ es, InOrder cmp a e) →
    (cloneEntries cmp es acc next).1.map (fun e => (e.1.denote, e.2.denote)) =
      (acc ++ es).map fun e => (e.1.denote, e.2.denote)
  | [], acc, _, _, _, _, _ => by rw [cloneEntries, List.append_nil]
  | (k, v) :: es, acc, next, h, ho, hp, hacc => by
    obtain ⟨hkes, hp⟩ := List.pairwise_cons.1 hp
    have hk := denote_clone next h.1 ho.1
    have hv := denote_clone (clone cmp k next).2 h.2.1 ho.2.1
    have hset := orderedmapSet_last (v := (clone cmp v (clone cmp k next).2).1) (fun a ha => by
      rw [hk]
      exact hacc a ha _ (.head _))
    rw [cloneEntries, hset, denote_cloneEntries es _ _ h.2.2 ho.2.2 hp, List.map_append, List.map_append,
      List.map_singleton, hk, hv]
    · rw [List.map_append, List.map_cons, List.append_assoc, List.singleton_append]
    · intro a ha e he
      rcases List.mem_append.1 ha with ha | ha
      · exact hacc a ha e (.tail _ he)
      · rw [List.mem_singleton.1 ha, InOrder, hk]
        exact hkes e he
end

/-- `asval_clone` returns the same value in other blocks. -/
structure ClonesTo (v w : MemVal ℕ) : Prop where
  same : w.denote = v.denote
  apart : ∀ a ∈ w.owned, a ∉ v.owned

theorem clonesTo_iff {v : MemVal ℕ} {next : ℕ} (ho : v.Ordered cmp) (hused : ∀ a ∈ v.owned, a < next) :
    v.ClonesTo (clone cmp v next).1 ↔ v.Plain := by
  obtain ⟨-, hfresh⟩ := clone_fresh cmp v next
  constructor
  · intro h
    rw [← plain_denote, ← h.same, plain_denote]
    exact hfresh.plain
  · intro h
    refine ⟨denote_clone next h ho, fun a ha hav => ?_⟩
    have := (hfresh.within a ha).1
    have := hused a hav
    omega

/-! ### Values without their storage -/

mutual
/-- The value as the other modules have it, a text being what a reader of its `char *` sees. -/
def asVal : MemVal α → AsVal
  | nil => .nil
  | boolean _ b => .boolean b
  | integer _ i => .integer i
  | double _ d => .double d
  | string _ _ s => .string (JsString.cstr s)
  | bytes _ _ bs _ => .bytes bs
  | list _ _ xs => .list (asValList xs)
  | map _ _ _ es => .map (asValEntries es)
  | geojson _ _ s => .geojson (JsString.cstr s)

def asValList : List (MemVal α) → List AsVal
  | [] => []
  | x :: xs => asVal x :: asValList xs

def asValEntries : List (MemVal α × MemVal α) → List (AsVal × AsVal)
  | [] => []
  | (k, v) :: es => (asVal k, asVal v) :: asValEntries es
end

mutual
theorem asVal_relabel (f : α → β) : ∀ v : MemVal α, (v.relabel f).asVal = v.asVal
  | nil => rfl
  | boolean _ _ => rfl
  | integer _ _ => rfl
  | double _ _ => rfl
  | string _ _ _ => rfl
  | bytes _ _ _ _ => rfl
  | list _ _ xs => congrArg AsVal.list (asValList_relabel f xs)
  | map _ _ _ es => congrArg AsVal.map (asValEntries_relabel f es)
  | geojson _ _ _ => rfl

theorem asValList_relabel (f : α → β) : ∀ xs : List (MemVal α), asValList (relabelList f xs) = asValList xs
  | [] => rfl
  | x :: xs => by rw [relabelList, asValList, asValList, asVal_relabel f x, asValList_relabel f xs]

theorem asValEntries_relabel (f : α → β) :
    ∀ es : List (MemVal α × MemVal α), asValEntries (relabelEntries f es) = asValEntries es
  | [] => rfl
  | (k, v) :: es => by
    rw [relabelEntries, asValEntries, asValEntries, asVal_relabel f k, asVal_relabel f v, asValEntries_relabel f es]
end

/-- `asval_clone` with its storage does what it does without. -/
theorem asVal_clone {v : MemVal ℕ} (next : ℕ) (hp : v.Plain) (ho : v.Ordered cmp) (hs : v.asVal.Stored) :
    (clone cmp v next).1.asVal = v.asVal.clone := by
  rw [AsVal.clone_eq hs, ← asVal_relabel fun _ => ()]
  exact (congrArg asVal (denote_clone next hp ho)).trans (asVal_relabel _ v)

end MemVal

/-! ### Keys -/

/-- An `as_key`, in a block of its own if it was allocated. -/
structure MemKey (α : Type) where
  block : Option α
  ns : Bytes
  set : Bytes
  value : Option (MemVal α)
  digest : Option Bytes

namespace MemKey

variable {α : Type}

/-- The key inside a record that `as_record_init` has made. -/
def empty : MemKey α := ⟨none, [], [], none, none⟩

def denote (k : MemKey α) : MemKey Unit := ⟨none, k.ns, k.set, k.value.map (·.denote), k.digest⟩

def owned (k : MemKey α) : List α := k.block.toList ++ (k.value.map (·.owned)).getD []

def Plain (k : MemKey α) : Prop := ∀ v ∈ k.value, v.Plain

/-- A key by which a record can be found. -/
def Identified (k : MemKey α) : Prop := k.digest.isSome = true ∨ k.value.isSome = true

section
variable (cmp : MemVal Unit → MemVal Unit → Ordering)

def Ordered (k : MemKey α) : Prop := ∀ v ∈ k.value, v.Ordered cmp

/-- The block of `as_key_new_digest` or `as_key_new_value`; `as_key_init_digest` and `as_key_init_value`
fill in the key they are given. -/
def allocate (allocKey : Bool) (next : ℕ) : Option ℕ × ℕ :=
  if allocKey then (some next, next + 1) else (none, next)

/-- `key_clone`; `none` where it leaves `*dest` as it is. -/
def clone (allocKey : Bool) (src : MemKey ℕ) (next : ℕ) : Option (MemKey ℕ) × ℕ :=
  match src.digest, src.value with
  | some digest, none =>
    let block := allocate allocKey next
    (some ⟨block.1, src.ns, src.set, none, some digest⟩, block.2)
  | some digest, some v =>
    let block := allocate allocKey next
    let v' := v.clone cmp block.2
    (some ⟨block.1, src.ns, src.set, some v'.1, some digest⟩, v'.2)
  | none, some v =>
    let v' := v.clone cmp next
    let block := allocate allocKey v'.2
    (some ⟨block.1, src.ns, src.set, some v'.1, none⟩, block.2)
  | none, none => (none, next)

end

variable {cmp : MemVal Unit → MemVal Unit → Ordering} {k k' : MemKey ℕ} {lo hi next : ℕ} {allocKey : Bool}

/-- What `key_clone` can return. -/
structure Fresh (lo hi : ℕ) (k : MemKey ℕ) : Prop where
  plain : k.Plain
  within : ∀ a ∈ k.owned, lo ≤ a ∧ a < hi

theorem plain_denote : k.denote.Plain ↔ k.Plain := by
  rw [Plain, Plain, denote, Option.forall_mem_map]
  exact forall₂_congr fun v _ => v.plain_denote

theorem allocate_spec (allocKey : Bool) (next : ℕ) : next ≤ (allocate allocKey next).2 ∧
    ∀ a ∈ (allocate allocKey next).1, next ≤ a ∧ a < (allocate allocKey next).2 := by
  cases allocKey with
  | false => exact ⟨le_rfl, nofun⟩
  | true =>
    refine ⟨Nat.le_succ next, fun a ha => ?_⟩
    obtain rfl : next = a := Option.some.inj ha
    exact ⟨le_rfl, Nat.lt_succ_self _⟩

theorem Fresh.of_parts {block : Option ℕ} {ns set : Bytes} {value : Option (MemVal ℕ)} {digest : Option Bytes}
    (hblock : ∀ a ∈ block, lo ≤ a ∧ a < hi) (hvalue : ∀ v ∈ value, MemVal.Fresh lo hi v) :
    Fresh lo hi ⟨block, ns, set, value, digest⟩ := by
  refine ⟨fun v hv => (hvalue v hv).plain, fun a ha => ?_⟩
  rcases List.mem_append.1 ha with ha | ha
  · exact hblock a (Option.mem_toList.1 ha)
  · cases value with
    | none => cases ha
    | some v => exact (hvalue v rfl).within a ha

theorem clone_fresh (cmp : MemVal Unit → MemVal Unit → Ordering) (allocKey : Bool) (k : MemKey ℕ) (next : ℕ) :
    next ≤ (clone cmp allocKey k next).2 ∧
    ∀ k' ∈ (clone cmp allocKey k next).1, Fresh next (clone cmp allocKey k next).2 k' := by
  obtain ⟨block, ns, set, value, digest⟩ := k
  cases digest with
  | some digest =>
    obtain ⟨hle, hblock⟩ := allocate_spec allocKey next
    cases value with
    | none =>
      refine ⟨hle, fun k' hk' => ?_⟩
      rw [← Option.some.inj hk']
      exact .of_parts hblock nofun
    | some v =>
      obtain ⟨hle', hv⟩ := v.clone_fresh cmp (allocate allocKey next).2
      refine ⟨hle.trans hle', fun k' hk' => ?_⟩
      rw [← Option.some.inj hk']
      refine .of_parts (fun a ha => ⟨(hblock a ha).1, (hblock a ha).2.trans_le hle'⟩) fun w hw => ?_
      rw [← Option.some.inj hw]
      exact hv.mono hle le_rfl
  | none =>
    cases value with
    | none => exact ⟨le_rfl, nofun⟩
    | some v =>
      obtain ⟨hle, hv⟩ := v.clone_fresh cmp next
      obtain ⟨hle', hblock⟩ := allocate_spec allocKey (v.clone cmp next).2
      refine ⟨hle.trans hle', fun k' hk' => ?_⟩
      rw [← Option.some.inj hk']
      refine .of_parts (fun a ha => ⟨hle.trans (hblock a ha).1, (hblock a ha).2⟩) fun w hw => ?_
      rw [← Option.some.inj hw]
      exact hv.mono le_rfl hle'

theorem denote_clone (ho : k.Ordered cmp) (hp : k.Plain) (hk' : k' ∈ (clone cmp allocKey k next).1) :
    k'.denote = k.denote := by
  obtain ⟨block, ns, set, value, digest⟩ := k
  cases digest with
  | some digest =>
    cases value with
    | none =>
      rw [← Option.some.inj hk']
      rfl
    | some v =>
      have hv := MemVal.denote_clone (allocate allocKey next).2 (hp v rfl) (ho v rfl)
      rw [← Option.some.inj hk', denote, denote, Option.map_some, hv]
      rfl
  | none =>
    cases value with
    | none => cases hk'
    | some v =>
      have hv := MemVal.denote_clone next (hp v rfl) (ho v rfl)
      rw [← Option.some.inj hk', denote, denote, Option.map_some, hv]
      rfl

theorem isSome_clone : (clone cmp allocKey k next).1.isSome = true ↔ k.Identified := by
  obtain ⟨block, ns, set, value, digest⟩ := k
  cases digest with
  | some digest => cases value <;> exact iff_of_true rfl (.inl rfl)
  | none =>
    cases value with
    | some v => exact iff_of_true rfl (.inr rfl)
    | none => exact iff_of_false Bool.false_ne_true (fun h => h.elim nofun nofun)

/-- The same key in other blocks. -/
structure ClonesTo (k k' : MemKey ℕ) : Prop where
  same : k'.denote = k.denote
  apart : ∀ a ∈ k'.owned, a ∉ k.owned

theorem clonesTo_iff (ho : k.Ordered cmp) (hused : ∀ a ∈ k.owned, a < next) :
    (∃ k' ∈ (clone cmp allocKey k next).1, k.ClonesTo k') ↔ k.Plain ∧ k.Identified := by
  obtain ⟨-, hfresh⟩ := clone_fresh cmp allocKey k next
  constructor
  · rintro ⟨k', hk', h⟩
    refine ⟨?_, isSome_clone.1 (Option.isSome_iff_exists.2 ⟨k', hk'⟩)⟩
    rw [← plain_denote, ← h.same, plain_denote]
    exact (hfresh k' hk').plain
  · rintro ⟨hp, hi⟩
    obtain ⟨k', hk'⟩ := Option.isSome_iff_exists.1 (isSome_clone.2 hi)
    refine ⟨k', hk', denote_clone ho hp hk', fun a ha hak => ?_⟩
    have := ((hfresh k' hk').within a ha).1
    have := hused a hak
    omega

end MemKey

/-! ### Records -/

/-- `as_record_set` in a table with room for so many bins. -/
def recordSet {β : Type} (capacity : ℕ) (bins : List (Bytes × β)) (name : Bytes) (v : β) : List (Bytes × β) :=
  if AS_BIN_NAME_MAX_LEN < name.length then bins
  else if (bins.map Prod.fst).contains name then Assoc.set bins name v
  else if bins.length < capacity then bins ++ [(name, v)]
  else bins

theorem AsRecord.bins_set (r : AsRecord) (name : Bytes) (v : AsVal) :
    (r.set name v).bins = recordSet r.capacity r.bins name v := by
  unfold AsRecord.set recordSet
  simp only [List.contains_iff_mem]
  split_ifs <;> rfl

/-- An `as_record` with the table of its bins. -/
structure MemRecord (α : Type) where
  gen : UInt16
  ttl : UInt32
  table : α
  bins : List (Bytes × MemVal α)
  key : MemKey α

namespace MemRecord

variable {α : Type}

def denote (r : MemRecord α) : MemRecord Unit :=
  ⟨r.gen, r.ttl, (), r.bins.map fun b => (b.1, b.2.denote), r.key.denote⟩

def owned (r : MemRecord α) : List α := r.table :: (r.bins.flatMap fun b => b.2.owned) ++ r.key.owned

structure Plain (r : MemRecord α) : Prop where
  bins : ∀ b ∈ r.bins, b.2.Plain
  key : r.key.Plain

section
variable (cmp : MemVal Unit → MemVal Unit → Ordering)

/-- The loop of `record_clone` over the bins. -/
def cloneBins (capacity : ℕ) : List (Bytes × MemVal ℕ) → List (Bytes × MemVal ℕ) → ℕ →
    List (Bytes × MemVal ℕ) × ℕ
  | [], dest, next => (dest, next)
  | (name, v) :: bins, dest, next =>
    let v' := v.clone cmp next
    cloneBins capacity bins (recordSet capacity dest name v'.1) v'.2

/-- `record_clone` into a record that `as_record_init` has given room for `capacity` bins at `table`. -/
def clone (capacity table : ℕ) (src : MemRecord ℕ) (next : ℕ) : MemRecord ℕ × ℕ :=
  let bins := cloneBins cmp capacity src.bins [] next
  let key := src.key.clone cmp false bins.2
  (⟨src.gen, src.ttl, table, bins.1, key.1.getD .empty⟩, key.2)

/-- A record as the C client makes it of the answer of a server. -/
structure Valid (r : MemRecord ℕ) : Prop where
  short : ∀ b ∈ r.bins, b.1.length ≤ AS_BIN_NAME_MAX_LEN
  nodup : (r.bins.map Prod.fst).Nodup
  ordered : ∀ b ∈ r.bins, b.2.Ordered cmp
  key : r.key.Ordered cmp

end

variable {cmp : MemVal Unit → MemVal Unit → Ordering} {r : MemRecord ℕ} {next : ℕ}

theorem plain_denote : r.denote.Plain ↔ r.Plain := by
  constructor
  · intro h
    refine ⟨fun b hb => ?_, MemKey.plain_denote.1 h.key⟩
    exact (b.2.plain_denote).1 (h.bins _ (List.mem_map_of_mem hb))
  · intro h
    refine ⟨fun b hb => ?_, MemKey.plain_denote.2 h.key⟩
    obtain ⟨b', hb', rfl⟩ := List.mem_map.1 hb
    exact (b'.2.plain_denote).2 (h.bins b' hb')

theorem mem_recordSet {β : Type} {capacity : ℕ} {bins : List (Bytes × β)} {name : Bytes} {v : β} {b : Bytes × β}
    (h : b ∈ recordSet capacity bins name v) : b ∈ bins ∨ b.2 = v := by
  rw [recordSet] at h
  split_ifs at h
  · exact .inl h
  · rw [Assoc.mem_set] at h
    split_ifs at h
    · exact .inr h
    · exact .inl h
  · exact (List.mem_append.1 h).imp_right fun h => by rw [List.mem_singleton.1 h]
  · exact .inl h

theorem recordSet_new {β : Type} {capacity : ℕ} {bins : List (Bytes × β)} {name : Bytes} (v : β)
    (hshort : name.length ≤ AS_BIN_NAME_MAX_LEN) (hnew : name ∉ bins.map Prod.fst) (hroom : bins.length < capacity) :
    recordSet capacity bins name v = bins ++ [(name, v)] := by
  rw [recordSet, if_neg (Nat.not_lt.2 hshort), if_neg fun h => hnew (List.contains_iff_mem.1 h), if_pos hroom]

theorem cloneBins_fresh (cmp : MemVal Unit → MemVal Unit → Ordering) (capacity : ℕ) (bins : List (Bytes × MemVal ℕ)) :
    ∀ (dest : List (Bytes × MemVal ℕ)) {lo : ℕ} (next : ℕ), lo ≤ next → (∀ b ∈ dest, b.2.Fresh lo next) →
      next ≤ (cloneBins cmp capacity bins dest next).2 ∧
      ∀ b ∈ (cloneBins cmp capacity bins dest next).1, b.2.Fresh lo (cloneBins cmp capacity bins dest next).2 := by
  induction bins with
  | nil => exact fun dest lo next _ hdest => ⟨le_rfl, hdest⟩
  | cons b bins ih =>
    obtain ⟨name, v⟩ := b
    intro dest lo next hlo hdest
    obtain ⟨hle, hv⟩ := v.clone_fresh cmp next
    have hset : ∀ b ∈ recordSet capacity dest name (v.clone cmp next).1, b.2.Fresh lo (v.clone cmp next).2 := by
      intro b hb
      rcases mem_recordSet hb with hb | hb
      · exact (hdest b hb).mono le_rfl hle
      · rw [hb]
        exact hv.mono hlo le_rfl
    obtain ⟨hle', hbins⟩ := ih _ _ (hlo.trans hle) hset
    exact ⟨hle.trans hle', hbins⟩

theorem denote_cloneBins {capacity : ℕ} {bins : List (Bytes × MemVal ℕ)} :
    ∀ {dest : List (Bytes × MemVal ℕ)} {next : ℕ}, (∀ b ∈ bins, b.2.Plain ∧ b.2.Ordered cmp) →
      (∀ b ∈ bins, b.1.length ≤ AS_BIN_NAME_MAX_LEN) → ((dest ++ bins).map Prod.fst).Nodup →
      dest.length + bins.length ≤ capacity →
      (cloneBins cmp capacity bins dest next).1.map (fun b => (b.1, b.2.denote)) =
        (dest ++ bins).map fun b => (b.1, b.2.denote) := by
  induction bins with
  | nil =>
    intro dest next _ _ _ _
    rw [cloneBins, List.append_nil]
  | cons b bins ih =>
    obtain ⟨name, v⟩ := b
    intro dest next hbins hshort hnodup hroom
    obtain ⟨⟨hp, ho⟩, hbins⟩ := List.forall_mem_cons.1 hbins
    obtain ⟨hname, hshort⟩ := List.forall_mem_cons.1 hshort
    rw [List.length_cons] at hroom
    have hnew : name ∉ dest.map Prod.fst := by
      rw [List.map_append, List.map_cons, List.nodup_append] at hnodup
      intro hmem
      exact hnodup.2.2 name hmem name (List.mem_cons_self ..) rfl
    have hset := recordSet_new (v.clone cmp next).1 hname hnew (show dest.length < capacity by omega)
    have hv := MemVal.denote_clone next hp ho
    rw [cloneBins, hset, ih hbins hshort, List.map_append, List.map_append, List.map_singleton, hv, List.map_append,
      List.map_cons, List.append_assoc, List.singleton_append]
    · rw [List.map_append, List.map_append, List.map_singleton, List.append_assoc, List.singleton_append]
      rwa [List.map_append, List.map_cons] at hnodup
    · rw [List.length_append, List.length_singleton]
      omega

/-- The same record in other blocks. -/
structure ClonesTo (r r' : MemRecord ℕ) : Prop where
  same : r'.denote = r.denote
  apart : ∀ a ∈ r'.owned, a ∉ r.owned

theorem plain_clone {capacity table : ℕ} : (clone cmp capacity table r next).1.Plain := by
  obtain ⟨-, hbins⟩ := cloneBins_fresh cmp capacity r.bins [] next le_rfl nofun
  obtain ⟨-, hkey⟩ := r.key.clone_fresh cmp false (cloneBins cmp capacity r.bins [] next).2
  refine ⟨fun b hb => (hbins b hb).plain, ?_⟩
  change ((r.key.clone cmp false (cloneBins cmp capacity r.bins [] next).2).1.getD .empty).Plain
  cases hk : (r.key.clone cmp false (cloneBins cmp capacity r.bins [] next).2).1 with
  | none => exact nofun
  | some k' => exact (hkey k' hk).plain

/-- The blocks of the clone are the table and blocks allocated after it. -/
theorem owned_clone {capacity : ℕ} : ∀ a ∈ (clone cmp capacity next r (next + 1)).1.owned, next ≤ a := by
  obtain ⟨hle, hbins⟩ := cloneBins_fresh cmp capacity r.bins [] (next + 1) le_rfl nofun
  obtain ⟨-, hkey⟩ := r.key.clone_fresh cmp false (cloneBins cmp capacity r.bins [] (next + 1)).2
  intro a ha
  rcases List.mem_append.1 ha with ha | ha
  · rcases List.mem_cons.1 ha with rfl | ha
    · exact le_rfl
    · obtain ⟨b, hb, ha⟩ := List.mem_flatMap.1 ha
      have := ((hbins b hb).within a ha).1
      omega
  · change a ∈ ((r.key.clone cmp false (cloneBins cmp capacity r.bins [] (next + 1)).2).1.getD .empty).owned at ha
    cases hk : (r.key.clone cmp false (cloneBins cmp capacity r.bins [] (next + 1)).2).1 with
    | none =>
      rw [hk] at ha
      cases ha
    | some k' =>
      rw [hk] at ha
      have := ((hkey k' hk).within a ha).1
      omega

/-- The key of the clone: that of the source, or the one `as_record_init` has made. -/
theorem denote_key_clone (ho : r.key.Ordered cmp) (hp : r.key.Plain) :
    ((r.key.clone cmp false next).1.getD .empty).denote = r.key.denote ↔
      r.key.Identified ∨ r.key.denote = .empty := by
  cases hk : (r.key.clone cmp false next).1 with
  | none =>
    have hnot : ¬ r.key.Identified := fun h => by
      have hsome : (r.key.clone cmp false next).1.isSome = true := MemKey.isSome_clone.2 h
      rw [hk] at hsome
      cases hsome
    rw [or_iff_right hnot, eq_comm]
    exact Iff.rfl
  | some k' =>
    have hsome : (r.key.clone cmp false next).1.isSome = true := by rw [hk]; rfl
    exact iff_of_true (MemKey.denote_clone ho hp hk) (.inl (MemKey.isSome_clone.1 hsome))

theorem clonesTo_iff (hv : r.Valid cmp) (hused : ∀ a ∈ r.owned, a < next) :
    r.ClonesTo (clone cmp r.bins.length next r (next + 1)).1 ↔
      r.Plain ∧ (r.key.Identified ∨ r.key.denote = .empty) := by
  constructor
  · intro h
    have hp : r.Plain := by
      rw [← plain_denote, ← h.same, plain_denote]
      exact plain_clone
    exact ⟨hp, (denote_key_clone hv.key hp.key).1 (congrArg MemRecord.key h.same)⟩
  · rintro ⟨hp, hkey⟩
    refine ⟨?_, fun a ha har => ?_⟩
    · have hbins : (cloneBins cmp r.bins.length r.bins [] (next + 1)).1.map (fun b => (b.1, b.2.denote)) =
          r.bins.map fun b => (b.1, b.2.denote) :=
        denote_cloneBins (fun b hb => ⟨hp.bins b hb, hv.ordered b hb⟩) hv.short hv.nodup (Nat.zero_add _).le
      rw [clone, denote, denote, hbins, (denote_key_clone hv.key hp.key).2 hkey]
    · have := owned_clone a ha
      have := hused a har
      omega

end MemRecord

/-- A clone denotes what its source does, in blocks that are not the source's, exactly if the source is plain
and its key has a value or a digest; a record may also have the key of `as_record_init`. -/
theorem clones_iff (cmp : MemVal Unit → MemVal Unit → Ordering) :
    (∀ (v : MemVal ℕ) (next : ℕ), v.Ordered cmp → (∀ a ∈ v.owned, a < next) →
      (v.ClonesTo (v.clone cmp next).1 ↔ v.Plain)) ∧
    (∀ (allocKey : Bool) (k : MemKey ℕ) (next : ℕ), k.Ordered cmp → (∀ a ∈ k.owned, a < next) →
      ((∃ k' ∈ (k.clone cmp allocKey next).1, k.ClonesTo k') ↔ k.Plain ∧ k.Identified)) ∧
    ∀ (r : MemRecord ℕ) (next : ℕ), r.Valid cmp → (∀ a ∈ r.owned, a < next) →
      (r.ClonesTo (r.clone cmp r.bins.length next (next + 1)).1 ↔
        r.Plain ∧ (r.key.Identified ∨ r.key.denote = .empty)) :=
  ⟨fun _ _ ho hused => MemVal.clonesTo_iff ho hused, fun _ _ _ ho hused => MemKey.clonesTo_iff ho hused,
    fun _ _ hv hused => MemRecord.clonesTo_iff hv hused⟩

/-- A list of a blob and a text. -/
def MemVal.sample : MemVal ℕ := .list 0 1 [.bytes 2 3 [1] AS_BYTES_BLOB, .string 4 5 [97]]

theorem sample_cloned : MemVal.sample.ClonesTo (MemVal.sample.clone (fun _ _ => .lt) 6).1 := by
  refine ((clones_iff fun _ _ => .lt).1 MemVal.sample 6 ⟨trivial, trivial, trivial⟩ ?_).2 ⟨rfl, ?_, trivial⟩
  · show ∀ a ∈ [0, 1, 2, 3, 4, 5], a < 6
    decide
  · show (0 : UInt8) ∉ [97]
    decide

/-- A HyperLogLog value becomes a plain blob, and a text with a NUL in it is cut there. -/
theorem hll_and_nul_not_cloned :
    ¬ (MemVal.bytes 0 1 [1] AS_BYTES_HLL).ClonesTo ((MemVal.bytes 0 1 [1] AS_BYTES_HLL).clone (fun _ _ => .lt) 2).1 ∧
      ¬ (MemVal.string 0 1 [97, 0, 98]).ClonesTo ((MemVal.string 0 1 [97, 0, 98]).clone (fun _ _ => .lt) 2).1 := by
  constructor
  · intro h
    cases h.same
  · intro h
    cases h.same

end AerospikeNode

import AerospikeNode.Cdt.Reports
import AerospikeNode.Exp.Objects
import AerospikeNode.Lib.Ledger

/-!
# The entries of an expression and their cleanup

`compile_expression` (`src/main/expressions.cc`) converts the entries of an array until one fails, and compiles
them if none does. `free_entries` then goes over the whole array, and takes what it frees from the properties
of the objects. `compileExpressionOfJs_right_iff` says when that leaves nothing unreported, unread and unfreed.
-/

namespace AerospikeNode

/-- The payloads that an entry owns. -/
inductive OwnedKind where
  | str
  | bytes
  | ctx
  | listPol
  | mapPol
deriving DecidableEq

/-- The union of an `as_exp_entry`, whose members share their storage. `other` is a number, or a value
that the entry does not own. -/
inductive UnionWord where
  | uninit
  | null
  | payload (k : OwnedKind)
  | other
deriving DecidableEq

def EntryVal.word : EntryVal → UnionWord
  | .none => .null
  | .val _ => .other
  | .str _ => .payload .str
  | .bytes _ => .payload .bytes
  | .int _ | .uint _ | .float _ | .bool _ => .other
  | .ctx Option.none | .listPol Option.none | .mapPol Option.none => .null
  | .ctx (some _) => .payload .ctx
  | .listPol (some _) => .payload .listPol
  | .mapPol (some _) => .payload .mapPol

/-- The union of an entry that did not convert: a part of a value may be left, else it is as `{}` and the
assignments of `NULL` made it. -/
def failedWord (obj : JsValue) : UnionWord := if obj.has "value" then .other else .null

/-- What the cleanup touches: the union of an entry, a payload that is freed as one of some kind, and what is
freed without being a payload. -/
inductive Touched where
  | entry (i : ℕ)
  | payload (i : ℕ) (held freedAs : OwnedKind)
  | junk (i : ℕ)
deriving DecidableEq

/-- The member of the union that `free_entries` frees. -/
def freedMember (obj : JsValue) : Option OwnedKind :=
  if obj.has "value" then none
  else if obj.has "strVal" then some .str
  else if obj.has "bytesVal" then some .bytes
  else if obj.has "intVal" then none
  else if obj.has "uintVal" then none
  else if obj.has "floatVal" then none
  else if obj.has "boolVal" then none
  else if obj.has "ctx" then some .ctx
  else if obj.has "listPolicy" then some .listPol
  else if obj.has "mapPolicy" then some .mapPol
  else none

/-- A round of `free_entries`: a member that is not `NULL` is freed. What an uninitialised one holds is not
known. The bytes are tested through `str_val`, which is the same word; `as_cdt_ctx_destroy` frees what
`as_cdt_ctx_create` made. -/
def freeEntry (i : ℕ) (obj : JsValue) (word : UnionWord) : List (Access Touched) :=
  match freedMember obj, word with
  | none, _ => []
  | some _, .null | some _, .uninit => [.use (.entry i)]
  | some m, .payload k => [.use (.entry i), .release (.payload i k m)]
  | some _, .other => [.use (.entry i), .release (.junk i)]

/-- `free_entries`, over the unions of the entries that were initialised. -/
def freeEntries (i : ℕ) : List JsValue → List UnionWord → Res (List (Access Touched))
  | [], _ => .ok []
  | x :: xs, words => do
    let obj ← x.asObject
    let rest ← freeEntries (i + 1) xs words.tail
    return freeEntry i obj (words.headD .uninit) ++ rest

section
variable (D : PolicyDefaults)

/-- `convert_entry`, on an element that is cast to an object. -/
def convertEntryOfJs [Platform] (x : JsValue) : Res ExpEntry := do
  let obj ← x.asObject
  expEntryOfJs D obj

/-- `entry->sz`: the size of the bytes, or the number given. -/
def entrySz (obj : JsValue) : EntryVal → UInt32
  | .bytes bs => .ofNat bs.length
  | _ =>
    match (obj.field "sz").optionalUint32Property with
    | .ok (some sz) => sz
    | _ => 0

/-- What the loop of `compile_expression` leaves: the entries that converted, the unions of those that
were initialised, and what stopped it. -/
structure Converted where
  entries : List (ExpEntry × UInt32)
  words : List UnionWord
  stopped : Option Fail

def convertEntries [Platform] : List JsValue → Converted
  | [] => ⟨[], [], none⟩
  | x :: xs =>
    match convertEntryOfJs D x with
    | .error e => ⟨[], [failedWord x], some e⟩
    | .ok e =>
      let rest := convertEntries xs
      ⟨(e, entrySz x e.v) :: rest.entries, e.v.word :: rest.words, rest.stopped⟩

/-- How `compile_expression` ends: its result code, what it stored in `filter_exp` if it did (`none` is `NULL`),
the unions it initialised and what its cleanup touched. -/
structure CompileEnd (ε : Type) where
  ok : Bool
  filterExp : Option (Option ε)
  words : List UnionWord
  cleanup : List (Access Touched)
deriving DecidableEq

variable {ε : Type} (asExpCompile : List (ExpEntry × UInt32) → Option ε)

/-- `compile_expression`; `none` where V8 takes the process with it. -/
def compileExpressionOfJs [Platform] (entriesAry : List JsValue) : Option (CompileEnd ε) :=
  let c := convertEntries D entriesAry
  match c.stopped with
  | some .abort => none
  | some .paramErr =>
    match freeEntries 0 entriesAry c.words with
    | .ok cleanup => some ⟨false, none, c.words, cleanup⟩
    | .error _ => none
  | none =>
    match freeEntries 0 entriesAry c.words with
    | .ok cleanup => some ⟨true, some (asExpCompile c.entries), c.words, cleanup⟩
    | .error _ => none

/-! ### What is asked of it -/

/-- The results that `convert_entry` does not look at: those of the items of a context and of the policies. -/
def IgnoredOk [Platform] (obj : JsValue) : Bool :=
  match freedMember obj with
  | some .ctx => ContextConverts numberToInt (obj.field "ctx")
  | some .listPol => !(obj.field "listPolicy").isObject || (getOptionalListPolicy D (obj.field "listPolicy")).isOk
  | some .mapPol => !(obj.field "mapPolicy").isObject || (getMapPolicy D (obj.field "mapPolicy")).isOk
  | _ => true

/-- The entry converts, with all that is in it. -/
def EntryConverts [Platform] (x : JsValue) : Bool := (convertEntryOfJs D x).isOk && IgnoredOk D x

end

/-- The cleanup of entries from `i` on reads the unions that were initialised, and frees each payload once, as
what it is, and nothing else. -/
structure CleanupRight (i : ℕ) (words : List UnionWord) (cleanup : List (Access Touched)) : Prop where
  reads : ∀ j, .use (.entry j) ∈ cleanup → j < i + words.length
  frees : ∀ j k, words[j]? = some (.payload k) → Access.releases cleanup (.payload (i + j) k k) = 1
  nothingElse : ∀ r, .release r ∈ cleanup → ∃ j k, r = .payload (i + j) k k ∧ words[j]? = some (.payload k)

/-- What is asked of `compile_expression` on these entries. -/
structure CompileRight [Platform] {ε : Type} (D : PolicyDefaults) (entriesAry : List JsValue)
    (out : CompileEnd ε) : Prop where
  ok_iff : out.ok = true ↔
    (∀ x ∈ entriesAry, EntryConverts D x = true) ∧ ∃ exp, out.filterExp = some (some exp)
  cleanup : CleanupRight 0 out.words out.cleanup

/-! ### One entry -/

section
variable {D : PolicyDefaults} {obj x : JsValue} {v : EntryVal} {w : UnionWord} {i : ℕ}

/-- The member that is freed is the one that was set, or `NULL`; where none is freed there is no payload. -/
def Agrees (obj : JsValue) (w : UnionWord) : Prop :=
  match freedMember obj with
  | none => ∀ k, w ≠ .payload k
  | some m => w = .null ∨ w = .payload m

theorem notPayload_of_map {α : Type} {r : Res α} {f : α → EntryVal} (h : r.map f = .ok v)
    (hf : ∀ a k, (f a).word ≠ .payload k) (k : OwnedKind) : v.word ≠ .payload k := by
  obtain ⟨a, -, rfl⟩ := Except.map_eq_ok.1 h
  exact hf a k

/-- `free_entries` asks for the properties in the order of `convert_entry`. -/
theorem agrees_entryVal [Platform] (h : entryVal D obj = .ok v) : Agrees obj v.word := by
  unfold entryVal at h
  unfold Agrees freedMember
  by_cases hvalue : obj.has "value" = true
  · rw [if_pos hvalue] at h ⊢
    exact notPayload_of_map h (by intro a k hk; cases hk)
  rw [if_neg hvalue] at h ⊢
  by_cases hstr : obj.has "strVal" = true
  · rw [if_pos hstr] at h ⊢
    obtain ⟨a, -, rfl⟩ := Except.map_eq_ok.1 h
    exact .inr rfl
  rw [if_neg hstr] at h ⊢
  by_cases hbytes : obj.has "bytesVal" = true
  · rw [if_pos hbytes] at h ⊢
    obtain ⟨a, -, rfl⟩ := Except.map_eq_ok.1 h
    exact .inr rfl
  rw [if_neg hbytes] at h ⊢
  by_cases hint : obj.has "intVal" = true
  · rw [if_pos hint] at h ⊢
    exact notPayload_of_map h (by intro a k hk; cases hk)
  rw [if_neg hint] at h ⊢
  by_cases huint : obj.has "uintVal" = true
  · rw [if_pos huint] at h ⊢
    exact notPayload_of_map h (by intro a k hk; cases hk)
  rw [if_neg huint] at h ⊢
  by_cases hfloat : obj.has "floatVal" = true
  · rw [if_pos hfloat] at h ⊢
    exact notPayload_of_map h (by intro a k hk; cases hk)
  rw [if_neg hfloat] at h ⊢
  by_cases hbool : obj.has "boolVal" = true
  · rw [if_pos hbool] at h ⊢
    exact notPayload_of_map h (by intro a k hk; cases hk)
  rw [if_neg hbool] at h ⊢
  by_cases hctx : obj.has "ctx" = true
  · rw [if_pos hctx] at h ⊢
    obtain ⟨path, -, rfl⟩ := Except.map_eq_ok.1 h
    cases path with
    | none => exact .inl rfl
    | some path => exact .inr rfl
  rw [if_neg hctx] at h ⊢
  by_cases hlist : obj.has "listPolicy" = true
  · rw [if_pos hlist] at h ⊢
    cases h
    split_ifs
    · exact .inr rfl
    · exact .inl rfl
  rw [if_neg hlist] at h ⊢
  by_cases hmap : obj.has "mapPolicy" = true
  · rw [if_pos hmap] at h ⊢
    cases h
    split_ifs
    · exact .inr rfl
    · exact .inl rfl
  rw [if_neg hmap] at h ⊢
  -- `wildcard`, `inf` and entries without a value, which `free_entries` does not ask for
  split_ifs at h
  · cases h
    intro k hk
    cases hk
  · cases h
    intro k hk
    cases hk
  · cases h
    intro k hk
    cases hk

theorem agrees_failedWord (obj : JsValue) : Agrees obj (failedWord obj) := by
  unfold Agrees failedWord
  by_cases hvalue : obj.has "value" = true
  · have hnone : freedMember obj = none := by
      unfold freedMember
      rw [if_pos hvalue]
    rw [hnone, if_pos hvalue]
    intro k hk
    cases hk
  · rw [if_neg hvalue]
    cases freedMember obj with
    | none =>
      intro k hk
      cases hk
    | some m => exact .inl rfl

theorem convertEntryOfJs_ok [Platform] {e : ExpEntry} (h : convertEntryOfJs D x = .ok e) :
    x.isObject = true ∧ Agrees x e.v.word := by
  obtain ⟨obj, hobj, h⟩ := Except.bind_eq_ok.1 h
  unfold JsValue.asObject at hobj
  split_ifs at hobj with hisobj
  cases hobj
  obtain ⟨op, -, h⟩ := Except.bind_eq_ok.1 h
  obtain ⟨count, -, h⟩ := Except.bind_eq_ok.1 h
  obtain ⟨sz, -, h⟩ := Except.bind_eq_ok.1 h
  obtain ⟨v, hv, h⟩ := Except.bind_eq_ok.1 h
  cases h
  exact ⟨hisobj, agrees_entryVal hv⟩

theorem isObject_of_paramErr [Platform] (h : convertEntryOfJs D x = .error .paramErr) : x.isObject = true := by
  by_contra hno
  unfold convertEntryOfJs JsValue.asObject at h
  rw [if_neg hno] at h
  cases h

theorem freeEntry_payload {k : OwnedKind} (h : Agrees obj (.payload k)) :
    freeEntry i obj (.payload k) = [.use (.entry i), .release (.payload i k k)] := by
  unfold Agrees at h
  unfold freeEntry
  cases hm : freedMember obj with
  | none =>
    rw [hm] at h
    exact absurd rfl (h k)
  | some m =>
    rw [hm] at h
    rcases h with hnull | hk
    · cases hnull
    · cases hk
      rfl

theorem freeEntry_noPayload (h : Agrees obj w) (hw : ∀ k, w ≠ .payload k) :
    freeEntry i obj w = [] ∨ freeEntry i obj w = [.use (.entry i)] := by
  unfold Agrees at h
  unfold freeEntry
  cases hm : freedMember obj with
  | none => exact .inl rfl
  | some m =>
    rw [hm] at h
    rcases h with rfl | rfl
    · exact .inr rfl
    · exact absurd rfl (hw m)

/-- An entry whose member agrees is read, and its payload freed if it has one. -/
theorem mem_freeEntry (h : Agrees obj w) {a : Access Touched} (ha : a ∈ freeEntry i obj w) :
    a = .use (.entry i) ∨ ∃ k, w = .payload k ∧ a = .release (.payload i k k) := by
  by_cases hw : ∃ k, w = .payload k
  · obtain ⟨k, rfl⟩ := hw
    rw [freeEntry_payload h] at ha
    rcases List.mem_cons.1 ha with rfl | ha
    · exact .inl rfl
    · exact .inr ⟨k, rfl, List.mem_singleton.1 ha⟩
  · rcases freeEntry_noPayload (i := i) h (fun k hk => hw ⟨k, hk⟩) with hnil | huse
    · rw [hnil] at ha
      cases ha
    · rw [huse] at ha
      exact .inl (List.mem_singleton.1 ha)

end

/-! ### The whole array -/

/-- What the cleanup of the initialised entries touches. -/
def freeAll (i : ℕ) : List JsValue → List UnionWord → List (Access Touched)
  | x :: xs, w :: words => freeEntry i x w ++ freeAll (i + 1) xs words
  | _, _ => []

section
variable {x : JsValue} {xs pre post : List JsValue} {w : UnionWord} {words : List UnionWord} {i : ℕ}
  {cleanup rest : List (Access Touched)}

theorem CleanupRight.cons (hagree : Agrees x w) (h : CleanupRight (i + 1) words cleanup) :
    CleanupRight i (w :: words) (freeEntry i x w ++ cleanup) := by
  -- the later cleanup frees payloads of later entries only
  have hlater : ∀ k k', Access.release (.payload i k k') ∉ cleanup := by
    intro k k' hmem
    obtain ⟨j, m, hj, -⟩ := h.nothingElse _ hmem
    injection hj with hi
    omega
  refine ⟨fun j hj => ?_, fun j k hjk => ?_, fun r hr => ?_⟩
  · rw [List.length_cons]
    rcases List.mem_append.1 hj with hj | hj
    · rcases mem_freeEntry hagree hj with heq | ⟨k, -, heq⟩
      · cases heq
        omega
      · cases heq
    · have := h.reads j hj
      omega
  · rw [Access.releases_append]
    cases j with
    | zero =>
      rw [List.getElem?_cons_zero, Option.some.injEq] at hjk
      subst hjk
      have hnone : Access.releases cleanup (.payload (i + 0) k k) = 0 :=
        Access.releases_eq_zero.2 (hlater k k)
      rw [hnone, freeEntry_payload hagree]
      simp [Access.releases]
    | succ j =>
      rw [List.getElem?_cons_succ] at hjk
      have hindex : i + (j + 1) = i + 1 + j := by omega
      have hnone : Access.releases (freeEntry i x w) (.payload (i + 1 + j) k k) = 0 := by
        refine Access.releases_eq_zero.2 fun hmem => ?_
        rcases mem_freeEntry hagree hmem with heq | ⟨m, -, heq⟩
        · cases heq
        · injection heq with heq
          injection heq with hi
          omega
      rw [hindex, hnone, h.frees j k hjk]
  · rcases List.mem_append.1 hr with hr | hr
    · rcases mem_freeEntry hagree hr with heq | ⟨k, rfl, heq⟩
      · cases heq
      · cases heq
        exact ⟨0, k, rfl, rfl⟩
    · obtain ⟨j, k, rfl, hjk⟩ := h.nothingElse r hr
      have hindex : i + 1 + j = i + (j + 1) := by omega
      exact ⟨j + 1, k, by rw [hindex], hjk⟩

theorem cleanupRight_freeAll (hagree : List.Forall₂ Agrees pre words)
    (h : CleanupRight (i + pre.length) [] rest) : CleanupRight i words (freeAll i pre words ++ rest) := by
  induction hagree generalizing i with
  | nil => exact h
  | cons hx _ ih =>
    rw [freeAll, List.append_assoc]
    refine CleanupRight.cons hx (ih ?_)
    rw [List.length_cons] at h
    have hindex : ∀ n, i + 1 + n = i + (n + 1) := by
      intro n
      omega
    rw [hindex]
    exact h

theorem freeEntries_append (i : ℕ) (post : List JsValue) (hobj : ∀ y ∈ pre, y.isObject = true)
    (hagree : List.Forall₂ Agrees pre words) :
    freeEntries i (pre ++ post) words =
      (freeEntries (i + pre.length) post []).map fun rest => freeAll i pre words ++ rest := by
  induction hagree generalizing i with
  | nil =>
    show freeEntries i post [] = (freeEntries i post []).map fun rest => rest
    cases freeEntries i post [] <;> rfl
  | cons hx _ ih =>
    rename_i y w pre words _
    have hy : y.asObject = .ok y := if_pos (hobj y List.mem_cons_self)
    have hindex : i + 1 + pre.length = i + (y :: pre).length := by
      rw [List.length_cons]
      omega
    have hrest := ih (i + 1) fun z hz => hobj z (List.mem_cons_of_mem _ hz)
    rw [List.cons_append, freeEntries, hy, List.tail_cons, hrest, hindex]
    cases freeEntries (i + (y :: pre).length) post [] with
    | error e => rfl
    | ok rest => exact congrArg Except.ok (List.append_assoc _ _ _).symm

/-- The entries that were not initialised are read unless nothing of them is to be freed. -/
theorem freeEntries_uninit (h : freeEntries i post [] = .ok rest) :
    (∀ y ∈ post, y.isObject = true) ∧
      ((∀ j, .use (.entry j) ∈ rest → j < i) → rest = [] ∧ ∀ y ∈ post, freedMember y = none) := by
  induction post generalizing i rest with
  | nil =>
    cases h
    exact ⟨fun y hy => absurd hy List.not_mem_nil, fun _ => ⟨rfl, fun y hy => absurd hy List.not_mem_nil⟩⟩
  | cons y post ih =>
    obtain ⟨obj, hobj, h⟩ := Except.bind_eq_ok.1 h
    unfold JsValue.asObject at hobj
    split_ifs at hobj with hisobj
    cases hobj
    obtain ⟨later, hlater, h⟩ := Except.bind_eq_ok.1 h
    cases h
    obtain ⟨hobjs, hnone⟩ := ih hlater
    refine ⟨?_, fun hreads => ?_⟩
    · intro z hz
      rcases List.mem_cons.1 hz with rfl | hz
      · exact hisobj
      · exact hobjs z hz
    · have hy : freedMember y = none := by
        cases hm : freedMember y with
        | none => rfl
        | some m =>
          have huse : Access.use (.entry i) ∈ freeEntry i y .uninit ++ later := by
            unfold freeEntry
            rw [hm]
            exact List.mem_append_left _ (List.mem_singleton.2 rfl)
          exact absurd (hreads i huse) (Nat.lt_irrefl i)
      have hfree : freeEntry i y .uninit = [] := by
        unfold freeEntry
        rw [hy]
      obtain ⟨rfl, hpost⟩ := hnone fun j hj =>
        (hreads j (List.mem_append_right _ hj)).trans (Nat.lt_succ_self i)
      refine ⟨by rw [List.headD_nil, hfree]; rfl, ?_⟩
      intro z hz
      rcases List.mem_cons.1 hz with rfl | hz
      · exact hy
      · exact hpost z hz

theorem freeEntries_nothing (h : ∀ y ∈ post, y.isObject = true ∧ freedMember y = none) :
    freeEntries i post [] = .ok [] := by
  induction post generalizing i with
  | nil => rfl
  | cons y post ih =>
    obtain ⟨hobj, hnone⟩ := h y List.mem_cons_self
    have hy : y.asObject = .ok y := if_pos hobj
    have hfree : freeEntry i y .uninit = [] := by
      unfold freeEntry
      rw [hnone]
    rw [freeEntries, hy, List.tail_nil, ih fun z hz => h z (List.mem_cons_of_mem _ hz)]
    show Except.ok (freeEntry i y .uninit ++ []) = _
    rw [hfree]
    rfl

theorem cleanupRight_nil (i : ℕ) : CleanupRight i [] [] where
  reads _ hj := absurd hj List.not_mem_nil
  frees _ _ hjk := by cases hjk
  nothingElse _ hr := absurd hr List.not_mem_nil

end

/-! ### The conversion -/

section
variable {D : PolicyDefaults} {xs : List JsValue}

theorem isOk_iff {δ α : Type} {r : Except δ α} : r.isOk = true ↔ ∃ a, r = .ok a := by
  cases r with
  | error e =>
    constructor
    · intro h
      cases h
    · rintro ⟨a, ha⟩
      cases ha
  | ok a => exact ⟨fun _ => ⟨a, rfl⟩, fun _ => rfl⟩

theorem convertEntries_all [Platform] (h : ∀ x ∈ xs, (convertEntryOfJs D x).isOk = true) :
    (convertEntries D xs).stopped = none ∧ List.Forall₂ Agrees xs (convertEntries D xs).words := by
  induction xs with
  | nil => exact ⟨rfl, List.Forall₂.nil⟩
  | cons x xs ih =>
    obtain ⟨e, he⟩ := isOk_iff.1 (h x List.mem_cons_self)
    obtain ⟨hstopped, hwords⟩ := ih fun y hy => h y (List.mem_cons_of_mem _ hy)
    unfold convertEntries
    rw [he]
    exact ⟨hstopped, List.Forall₂.cons (convertEntryOfJs_ok he).2 hwords⟩

theorem convertEntries_stops [Platform] (post : List JsValue) {pre : List JsValue} {x : JsValue} {e : Fail}
    (hpre : ∀ y ∈ pre, (convertEntryOfJs D y).isOk = true) (hx : convertEntryOfJs D x = .error e) :
    (convertEntries D (pre ++ x :: post)).stopped = some e ∧
      List.Forall₂ Agrees (pre ++ [x]) (convertEntries D (pre ++ x :: post)).words := by
  induction pre with
  | nil =>
    rw [List.nil_append]
    unfold convertEntries
    rw [hx]
    exact ⟨rfl, List.Forall₂.cons (agrees_failedWord x) List.Forall₂.nil⟩
  | cons y pre ih =>
    obtain ⟨n, hn⟩ := isOk_iff.1 (hpre y List.mem_cons_self)
    obtain ⟨hstopped, hwords⟩ := ih fun z hz => hpre z (List.mem_cons_of_mem _ hz)
    rw [List.cons_append]
    unfold convertEntries
    rw [hn]
    exact ⟨hstopped, List.Forall₂.cons (convertEntryOfJs_ok hn).2 hwords⟩

theorem accepted_or_first [Platform] (D : PolicyDefaults) (xs : List JsValue) :
    (∀ x ∈ xs, (convertEntryOfJs D x).isOk = true) ∨ ∃ pre x post e, xs = pre ++ x :: post ∧
      (∀ y ∈ pre, (convertEntryOfJs D y).isOk = true) ∧ convertEntryOfJs D x = .error e := by
  induction xs with
  | nil => exact .inl fun x hx => absurd hx List.not_mem_nil
  | cons x xs ih =>
    cases hx : convertEntryOfJs D x with
    | error e => exact .inr ⟨[], x, xs, e, rfl, fun y hy => absurd hy List.not_mem_nil, hx⟩
    | ok n =>
      have hok : (convertEntryOfJs D x).isOk = true := isOk_iff.2 ⟨n, hx⟩
      rcases ih with hall | ⟨pre, y, post, e, rfl, hpre, hy⟩
      · refine .inl fun z hz => ?_
        rcases List.mem_cons.1 hz with rfl | hz
        · exact hok
        · exact hall z hz
      · refine .inr ⟨x :: pre, y, post, e, rfl, fun z hz => ?_, hy⟩
        rcases List.mem_cons.1 hz with rfl | hz
        · exact hok
        · exact hpre z hz

theorem isObject_of_accepted [Platform] {x : JsValue} (h : (convertEntryOfJs D x).isOk = true) : x.isObject = true := by
  obtain ⟨e, he⟩ := isOk_iff.1 h
  exact (convertEntryOfJs_ok he).1

theorem accepted_of_converts [Platform] {x : JsValue} (h : EntryConverts D x = true) :
    (convertEntryOfJs D x).isOk = true :=
  (Bool.and_eq_true_iff.1 h).1

end

/-! ### Compiling -/

section
variable {ε : Type} {D : PolicyDefaults} (asExpCompile : List (ExpEntry × UInt32) → Option ε)
  {xs : List JsValue}

/-- The arrays that `compile_expression` handles: all entries convert and compile, or there is a first one that
is rejected, and the objects behind it have nothing to free. -/
def EntriesHandled [Platform] (D : PolicyDefaults) (asExpCompile : List (ExpEntry × UInt32) → Option ε)
    (xs : List JsValue) : Prop :=
  ((∀ x ∈ xs, EntryConverts D x = true) ∧ (asExpCompile (convertEntries D xs).entries).isSome = true) ∨
  ∃ pre x post, xs = pre ++ x :: post ∧ (∀ y ∈ pre, (convertEntryOfJs D y).isOk = true) ∧
    convertEntryOfJs D x = .error .paramErr ∧ ∀ y ∈ post, y.isObject = true ∧ freedMember y = none

theorem compileExpressionOfJs_accepted [Platform] (h : ∀ x ∈ xs, (convertEntryOfJs D x).isOk = true) :
    ∃ cleanup, compileExpressionOfJs D asExpCompile xs =
      some ⟨true, some (asExpCompile (convertEntries D xs).entries), (convertEntries D xs).words, cleanup⟩ ∧
      CleanupRight 0 (convertEntries D xs).words cleanup := by
  obtain ⟨hstopped, hwords⟩ := convertEntries_all h
  have hfree := freeEntries_append 0 [] (fun x hx => isObject_of_accepted (h x hx)) hwords
  rw [List.append_nil] at hfree
  refine ⟨freeAll 0 xs (convertEntries D xs).words ++ [], ?_, cleanupRight_freeAll hwords (cleanupRight_nil _)⟩
  unfold compileExpressionOfJs
  dsimp only
  rw [hstopped, hfree]
  rfl

/-- Entries of which one is rejected: what the cleanup does to the objects behind it decides. -/
theorem compileExpressionOfJs_stops [Platform] (post : List JsValue) {pre : List JsValue} {x : JsValue}
    (hpre : ∀ y ∈ pre, (convertEntryOfJs D y).isOk = true) (hx : convertEntryOfJs D x = .error .paramErr) :
    ∃ words, List.Forall₂ Agrees (pre ++ [x]) words ∧
      compileExpressionOfJs D asExpCompile (pre ++ x :: post) =
        match freeEntries (pre ++ [x]).length post [] with
        | .ok rest => some ⟨false, none, words, freeAll 0 (pre ++ [x]) words ++ rest⟩
        | .error _ => none := by
  obtain ⟨hstopped, hwords⟩ := convertEntries_stops post hpre hx
  have hobj : ∀ y ∈ pre ++ [x], y.isObject = true := by
    intro y hy
    rcases List.mem_append.1 hy with hy | hy
    · exact isObject_of_accepted (hpre y hy)
    · rw [List.mem_singleton.1 hy]
      exact isObject_of_paramErr hx
  have hfree := freeEntries_append 0 post hobj hwords
  rw [List.append_assoc, List.singleton_append, Nat.zero_add] at hfree
  refine ⟨_, hwords, ?_⟩
  unfold compileExpressionOfJs
  dsimp only
  rw [hstopped, hfree]
  cases freeEntries (pre ++ [x]).length post [] <;> rfl

theorem compileExpressionOfJs_aborts [Platform] (post : List JsValue) {pre : List JsValue} {x : JsValue}
    (hpre : ∀ y ∈ pre, (convertEntryOfJs D y).isOk = true) (hx : convertEntryOfJs D x = .error .abort) :
    compileExpressionOfJs D asExpCompile (pre ++ x :: post) = none := by
  unfold compileExpressionOfJs
  dsimp only
  rw [(convertEntries_stops post hpre hx).1]

/-- `compile_expression` reports what does not convert or compile, reads no entry that was not initialised and
frees each payload once exactly for the arrays of `EntriesHandled`. -/
theorem compileExpressionOfJs_right_iff [Platform] (D : PolicyDefaults)
    (asExpCompile : List (ExpEntry × UInt32) → Option ε) (entriesAry : List JsValue) :
    (∃ out, compileExpressionOfJs D asExpCompile entriesAry = some out ∧ CompileRight D entriesAry out) ↔
      EntriesHandled D asExpCompile entriesAry := by
  constructor
  · rintro ⟨out, hout, hok, hcleanup⟩
    rcases accepted_or_first D entriesAry with hall | ⟨pre, x, post, e, rfl, hpre, hx⟩
    · obtain ⟨cleanup, hrun, -⟩ := compileExpressionOfJs_accepted asExpCompile hall
      rw [hrun] at hout
      cases hout
      obtain ⟨hconverts, exp, hexp⟩ := hok.1 rfl
      exact .inl ⟨hconverts, Option.isSome_iff_exists.2 ⟨exp, Option.some.inj hexp⟩⟩
    · cases e with
      | abort =>
        rw [compileExpressionOfJs_aborts asExpCompile post hpre hx] at hout
        cases hout
      | paramErr =>
        obtain ⟨words, hwords, hrun⟩ := compileExpressionOfJs_stops asExpCompile post hpre hx
        rw [hrun] at hout
        cases hfree : freeEntries (pre ++ [x]).length post [] with
        | error e =>
          rw [hfree] at hout
          cases hout
        | ok rest =>
          rw [hfree] at hout
          cases hout
          obtain ⟨hobj, hnone⟩ := freeEntries_uninit hfree
          have hreads : ∀ j, .use (.entry j) ∈ rest → j < (pre ++ [x]).length := by
            intro j hj
            have hlt := hcleanup.reads j (List.mem_append_right _ hj)
            rw [Nat.zero_add, ← hwords.length_eq] at hlt
            exact hlt
          obtain ⟨-, hpost⟩ := hnone hreads
          exact .inr ⟨pre, x, post, rfl, hpre, hx, fun y hy => ⟨hobj y hy, hpost y hy⟩⟩
  · rintro (⟨hall, hcompiles⟩ | ⟨pre, x, post, rfl, hpre, hx, hpost⟩)
    · obtain ⟨cleanup, hrun, hcleanup⟩ := compileExpressionOfJs_accepted asExpCompile
        fun x hx => accepted_of_converts (hall x hx)
      obtain ⟨exp, hexp⟩ := Option.isSome_iff_exists.1 hcompiles
      exact ⟨_, hrun, ⟨fun _ => ⟨hall, exp, congrArg some hexp⟩, fun _ => rfl⟩, hcleanup⟩
    · obtain ⟨words, hwords, hrun⟩ := compileExpressionOfJs_stops asExpCompile post hpre hx
      rw [freeEntries_nothing hpost] at hrun
      refine ⟨_, hrun, ⟨fun h => ?_, fun h => ?_⟩, ?_⟩
      · cases h
      · have hxok := accepted_of_converts (h.1 x (List.mem_append_right _ List.mem_cons_self))
        rw [hx] at hxok
        cases hxok
      · refine cleanupRight_freeAll hwords ?_
        rw [Nat.zero_add]
        exact cleanupRight_nil _

end

open Platform

/-- `[{ op: 'x' }, { op: 3, strVal: 'a' }]`: the first entry is rejected, and the cleanup reads the second, which was
never written. -/
theorem unwritten_entry_read : ¬ ∀ (D : PolicyDefaults) (asExpCompile : List (ExpEntry × UInt32) → Option Unit)
    (entriesAry : List JsValue),
    ∃ out, compileExpressionOfJs D asExpCompile entriesAry = some out ∧ CompileRight D entriesAry out := by
  intro h
  obtain ⟨out, hout, -, hcleanup⟩ := h .client (fun _ => none)
    [.plain [(JsString.lit "op", .str (JsString.lit "x"))],
      .plain [(JsString.lit "op", .int 3), (JsString.lit "strVal", .str (JsString.lit "a"))]]
  have hrun : compileExpressionOfJs .client (fun _ => (none : Option Unit))
      [.plain [(JsString.lit "op", .str (JsString.lit "x"))],
        .plain [(JsString.lit "op", .int 3), (JsString.lit "strVal", .str (JsString.lit "a"))]] =
      some ⟨false, none, [.null], [.use (.entry 1)]⟩ := by decide +kernel
  rw [hrun] at hout
  cases hout
  exact absurd (hcleanup.reads 1 List.mem_cons_self) (by decide)

end AerospikeNode

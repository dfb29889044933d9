import AerospikeNode.Info.Parse
import AerospikeNode.Js.NumText
import AerospikeNode.Lib.Split

/-!
# Info responses rendered and parsed

The structures a node reports, each in the shape that the row of its key asks for, and their text:
`key TAB value` lines, every value with the separators of its row. `parse_render_iff` says which come
back from `info.parse` as they were.
-/

namespace AerospikeNode.Info

open JsValue Split

/-! ### Structures -/

/-- What a row of the table makes of a value. -/
inductive Layout where
  | smart
  | list
  | pairs
  | chopped
  | records (sep : UInt16)
  | bins
  | nsBins
deriving DecidableEq

def Layout.separators : Layout → List Separator
  | smart => [.smartParse]
  | list => [.char SEMICOLON]
  | pairs => [.pair SEMICOLON EQUALS]
  | chopped => [.chop, .pair COLON EQUALS]
  | records sep => [.char SEMICOLON, .pair sep EQUALS]
  | bins => [.splitBins]
  | nsBins => [.pair SEMICOLON COLON, .splitBins]

def layoutOf : Option Row → Layout
  | none => .smart
  | some .service => .list
  | some .namespaceOf | some .sindexOfOf => .pairs
  | some .setsOfOf => .chopped
  | some .udfList => .records COMMA
  | some .sindex | some .sindexOf | some .getDcConfig | some .sets | some .setsOf => .records COLON
  | some .binsOf => .bins
  | some .bins => .nsBins

theorem separators_layoutOf (row : Option Row) : (layoutOf row).separators = separatorsOf row := by
  rcases row with _ | row
  · rfl
  · cases row <;> rfl

abbrev Pairs := List (JsString × JsString)

/-- A structure in a layout. -/
inductive InfoValue : Layout → Type where
  | text (s : JsString) : InfoValue .smart
  | smartList (xs : List JsString) : InfoValue .smart
  | smartPairs (kvs : Pairs) : InfoValue .smart
  | list (xs : List JsString) : InfoValue .list
  | pairs (kvs : Pairs) : InfoValue .pairs
  | chopped (kvs : Pairs) : InfoValue .chopped
  | records {sep : UInt16} (hsep : sep = COLON ∨ sep = COMMA) (rs : List Pairs) : InfoValue (.records sep)
  | bins (stats : Pairs) (names : List JsString) : InfoValue .bins
  | nsBins (nss : List (JsString × Pairs × List JsString)) : InfoValue .nsBins

/-! ### Text -/

def renderPair (sep2 : UInt16) (kv : JsString × JsString) : JsString := kv.1 ++ sep2 :: kv.2

def renderPairs (terminated : Bool) (sep1 sep2 : UInt16) (kvs : Pairs) : JsString :=
  join terminated sep1 (kvs.map (renderPair sep2))

def renderBins (stats : Pairs) (names : List JsString) : JsString :=
  join false COMMA (stats.map (renderPair EQUALS) ++ names)

def renderNsBins (n : JsString × Pairs × List JsString) : JsString × JsString :=
  (n.1, renderBins n.2.1 n.2.2)

/-- The text of a structure. A layout that chops the text has a last `;` to lose. -/
def InfoValue.render (terminated : Bool) : {layout : Layout} → InfoValue layout → JsString
  | _, text s => s
  | _, smartList xs | _, list xs => join terminated SEMICOLON xs
  | _, smartPairs kvs | _, pairs kvs => renderPairs terminated SEMICOLON EQUALS kvs
  | _, chopped kvs => renderPairs terminated COLON EQUALS kvs ++ [SEMICOLON]
  | _, @records sep _ rs => join terminated SEMICOLON (rs.map (renderPairs false sep EQUALS))
  | _, bins stats names => renderBins stats names
  | _, nsBins nss => renderPairs terminated SEMICOLON COLON (nss.map renderNsBins)

/-! ### The object it stands for -/

def pairsToJs (kvs : Pairs) : JsValue := .plain (kvs.map fun kv => (kv.1, parseValue (some kv.2)))

def listToJs (xs : List JsString) : JsValue := .array (xs.map .str)

def binsToJs (stats : Pairs) (names : List JsString) : JsValue :=
  .plain [(JsString.lit "stats", pairsToJs stats), (JsString.lit "names", listToJs names)]

/-- Every element and every value in full, a value that is the text of a number as that number. -/
def InfoValue.toJs : {layout : Layout} → InfoValue layout → JsValue
  | _, text s => parseValue (some s)
  | _, smartList xs | _, list xs => listToJs xs
  | _, smartPairs kvs | _, pairs kvs | _, chopped kvs => pairsToJs kvs
  | _, records _ rs => .array (rs.map pairsToJs)
  | _, bins stats names => binsToJs stats names
  | _, nsBins nss => .plain (nss.map fun n => (n.1, binsToJs n.2.1 n.2.2))

/-! ### What can be rendered -/

/-- Keys without separators, each only once; values without the separators around them. -/
structure PairsRenderable (outer : List UInt16) (inner : UInt16) (kvs : Pairs) : Prop where
  nodup : (kvs.map Prod.fst).Nodup
  key : ∀ kv ∈ kvs, inner ∉ kv.1 ∧ NEWLINE ∉ kv.1 ∧ TAB ∉ kv.1 ∧ ∀ c ∈ outer, c ∉ kv.1
  value : ∀ kv ∈ kvs, NEWLINE ∉ kv.2 ∧ ∀ c ∈ outer, c ∉ kv.2

/-- Elements without the separators around them. -/
def ListRenderable (outer : List UInt16) (xs : List JsString) : Prop :=
  ∀ x ∈ xs, NEWLINE ∉ x ∧ ∀ c ∈ outer, c ∉ x

def InfoValue.Renderable : {layout : Layout} → InfoValue layout → Prop
  | _, text s => NEWLINE ∉ s
  | _, smartList xs | _, list xs => ListRenderable [SEMICOLON] xs
  | _, smartPairs kvs | _, pairs kvs => PairsRenderable [SEMICOLON] EQUALS kvs
  | _, chopped kvs => PairsRenderable [COLON] EQUALS kvs
  | _, @records sep _ rs => ∀ r ∈ rs, PairsRenderable [sep, SEMICOLON] EQUALS r
  | _, bins stats names => PairsRenderable [COMMA] EQUALS stats ∧ ListRenderable [COMMA] names
  | _, nsBins nss => (nss.map Prod.fst).Nodup ∧
      (∀ n ∈ nss, COLON ∉ n.1 ∧ NEWLINE ∉ n.1 ∧ TAB ∉ n.1 ∧ SEMICOLON ∉ n.1) ∧
      ∀ n ∈ nss, PairsRenderable [COMMA, SEMICOLON] EQUALS n.2.1 ∧
        (∀ kv ∈ n.2.1, COLON ∉ kv.1) ∧ ListRenderable [COMMA, SEMICOLON] n.2.2

/-- A line of a response. -/
structure InfoLine (minimatch : JsString → Row → Bool) where
  key : JsString
  value : InfoValue (layoutOf (rowOf minimatch key))
  terminated : Bool

namespace InfoLine
variable {minimatch : JsString → Row → Bool}

def text (l : InfoLine minimatch) : JsString := l.value.render l.terminated

end InfoLine

/-- The text of a response. -/
def renderInfo {minimatch : JsString → Row → Bool} (terminated : Bool) (lines : List (InfoLine minimatch)) :
    JsString :=
  renderPairs terminated NEWLINE TAB (lines.map fun l => (l.key, l.text))

def infoToJs {minimatch : JsString → Row → Bool} (lines : List (InfoLine minimatch)) : JsValue :=
  .plain (lines.map fun l => (l.key, l.value.toJs))

/-- A response whose keys are distinct and whose values can be rendered. -/
structure InfoRenderable {minimatch : JsString → Row → Bool} (lines : List (InfoLine minimatch)) : Prop where
  nodup : (lines.map InfoLine.key).Nodup
  key : ∀ l ∈ lines, NEWLINE ∉ l.key ∧ TAB ∉ l.key
  value : ∀ l ∈ lines, l.value.Renderable

/-! ### What comes back -/

/-- No key is a setter and no value has an inner separator. -/
def PairsKept (kvs : Pairs) : Prop := ∀ kv ∈ kvs, kv.1 ≠ PROTO ∧ EQUALS ∉ kv.2

/-- The names do not look like statistics, and there is something. -/
def BinsKept (stats : Pairs) (names : List JsString) : Prop :=
  PairsKept stats ∧ (∀ x ∈ names, EQUALS ∉ x) ∧ ¬(stats = [] ∧ names = [])

/-- The structures that come back from their text. -/
def InfoValue.Kept (terminated : Bool) : {layout : Layout} → InfoValue layout → Prop
  | _, text s => SEMICOLON ∉ s
  | _, smartList xs => terminated = false ∧ 2 ≤ xs.length ∧ ∀ x ∈ xs, EQUALS ∉ x
  | _, smartPairs kvs => PairsKept kvs ∧ (2 ≤ kvs.length ∨ (terminated = true ∧ kvs ≠ []))
  | _, list xs => isCanonical (join terminated SEMICOLON xs) = false ∧
      (terminated = true ∨ xs.getLast? ≠ some [])
  | _, pairs kvs | _, chopped kvs => PairsKept kvs
  | _, records _ rs => (∀ r ∈ rs, PairsKept r) ∧ (terminated = true ∨ rs.getLast? ≠ some [])
  | _, bins stats names => BinsKept stats names ∧ isCanonical (renderBins stats names) = false
  | _, nsBins nss => ∀ n ∈ nss, n.1 ≠ PROTO ∧ BinsKept n.2.1 n.2.2 ∧
      COLON ∉ renderBins n.2.1 n.2.2 ∧ isCanonical (renderBins n.2.1 n.2.2) = false

/-- The lines that come back: no setter for a key, and no TAB in the value. -/
def InfoLine.Kept {minimatch : JsString → Row → Bool} (l : InfoLine minimatch) : Prop :=
  l.key ≠ PROTO ∧ TAB ∉ l.text ∧ l.value.Kept l.terminated

/-! ### Values -/

section
variable {c sep1 sep2 : UInt16} {s s' : JsString} {kvs : Pairs} {terminated : Bool}

/-- No separator is part of the text of a number. -/
theorem isCanonical_of_mem (hc : isNumeric (Char.ofNat c.toNat) = false) (h : c ∈ s) : isCanonical s = false := by
  by_contra hs
  rw [Bool.not_eq_false, isCanonical, decide_eq_true_eq] at hs
  rw [← hs] at h
  rw [JsNumber.unit_numeric h] at hc
  cases hc

theorem isCanonical_nil : isCanonical [] = false := by decide +kernel

theorem parseValue_text (h : isCanonical s = false) : parseValue (some s) = .str s := by
  rw [parseValue_some, h, if_neg Bool.false_ne_true]

/-- A parsed value determines its text. -/
theorem parseValue_inj : parseValue (some s) = parseValue (some s') ↔ s = s' := by
  refine ⟨fun h => ?_, fun h => by rw [h]⟩
  rw [parseValue_some, parseValue_some] at h
  split_ifs at h with h1 h2 h2
  · rw [isCanonical, decide_eq_true_eq] at h1 h2
    rw [← h1, ← h2, JsValue.num.inj h]
  · exact JsValue.str.inj h

/-! ### Keys and values -/

theorem splitEntry_renderPair {kv : JsString × JsString} (h : sep2 ∉ kv.1) :
    splitEntry sep2 (renderPair sep2 kv) = (kv.1, parseValue (some (upTo sep2 kv.2))) := by
  obtain ⟨rest, hrest⟩ := splitOn_eq_cons sep2 kv.2
  rw [splitEntry, renderPair, List.splitOn_append_cons_self_of_not_mem h, hrest]
  rfl

theorem entries_renderPairs (hne : sep1 ≠ sep2) (hk : ∀ kv ∈ kvs, sep1 ∉ kv.1 ∧ sep2 ∉ kv.1)
    (hv : ∀ kv ∈ kvs, sep1 ∉ kv.2) : entries (renderPairs terminated sep1 sep2 kvs) sep1 sep2 =
      kvs.map fun kv => (kv.1, parseValue (some (upTo sep2 kv.2))) := by
  have hpieces : ∀ p ∈ kvs.map (renderPair sep2), sep1 ∉ p := by
    intro p hp
    obtain ⟨kv, hkv, rfl⟩ := List.mem_map.1 hp
    rw [renderPair, List.mem_append, List.mem_cons, not_or, not_or]
    exact ⟨(hk kv hkv).1, hne, hv kv hkv⟩
  have hlen : ∀ p ∈ kvs.map (renderPair sep2), decide (0 < p.length) = true := by
    intro p hp
    obtain ⟨kv, -, rfl⟩ := List.mem_map.1 hp
    rw [decide_eq_true_eq, renderPair, List.length_append, List.length_cons]
    omega
  rw [entries, renderPairs, filter_splitOn_join hpieces, List.filter_eq_self.2 hlen, List.map_map]
  exact List.map_congr_left fun kv hkv => splitEntry_renderPair (hk kv hkv).2

/-- Entries with distinct keys all stay, but for `__proto__`. -/
theorem foldl_setProperty_nodup {es acc : List (JsString × JsValue)} (h : ((acc ++ es).map Prod.fst).Nodup) :
    es.foldl (fun result e => setProperty result (.str e.1) e.2) acc =
      acc ++ es.filter fun e => e.1 ≠ PROTO := by
  induction es generalizing acc with
  | nil => rw [List.foldl_nil, List.filter_nil, List.append_nil]
  | cons e es ih =>
    rw [List.foldl_cons, setProperty_str]
    have hassoc : acc ++ e :: es = (acc ++ [e]) ++ es := by
      rw [List.append_assoc, List.singleton_append]
    by_cases hproto : e.1 = PROTO
    · rw [if_pos hproto, List.filter_cons_of_neg (by simpa using hproto)]
      refine ih (h.sublist ?_)
      exact ((List.sublist_cons_self e es).append_left acc).map Prod.fst
    · have hnew : e.1 ∉ acc.map Prod.fst := by
        rw [List.map_append, List.map_cons] at h
        exact fun hm => (List.nodup_append.1 h).2.2 _ hm _ (.head _) rfl
      rw [if_neg hproto, Assoc.set_of_notMem hnew, ih (hassoc ▸ h), List.filter_cons_of_pos (by simpa using hproto),
        List.append_assoc, List.singleton_append]

theorem parseKeyValue_renderPairs (hne : sep1 ≠ sep2) (hnodup : (kvs.map Prod.fst).Nodup)
    (hk : ∀ kv ∈ kvs, sep1 ∉ kv.1 ∧ sep2 ∉ kv.1) (hv : ∀ kv ∈ kvs, sep1 ∉ kv.2) :
    parseKeyValue (renderPairs terminated sep1 sep2 kvs) sep1 sep2 =
      (kvs.filter fun kv => kv.1 ≠ PROTO).map fun kv => (kv.1, parseValue (some (upTo sep2 kv.2))) := by
  have hkeys : ((kvs.map fun kv => (kv.1, parseValue (some (upTo sep2 kv.2)))).map Prod.fst).Nodup := by
    rw [List.map_map]
    exact hnodup
  rw [parseKeyValue, entries_renderPairs hne hk hv, @foldl_setProperty_nodup _ [] hkeys,
    List.nil_append, List.filter_map]
  rfl

/-- A single pair, which no separator follows. -/
theorem parseKeyValue_pair {key value : JsString} (hne : sep1 ≠ sep2) (hproto : key ≠ PROTO)
    (hkey : sep1 ∉ key ∧ sep2 ∉ key) (hvalue : sep1 ∉ value) :
    parseKeyValue (key ++ sep2 :: value) sep1 sep2 = [(key, parseValue (some (upTo sep2 value)))] := by
  have hparse := @parseKeyValue_renderPairs sep1 sep2 [(key, value)] false hne (List.nodup_singleton _)
    (List.forall_mem_singleton.2 hkey) (List.forall_mem_singleton.2 hvalue)
  rw [renderPairs, List.map_singleton, join_singleton, List.filter_cons_of_pos (by simpa using hproto),
    List.filter_nil, List.map_singleton] at hparse
  exact hparse

theorem plain_inj {ps ps' : Props} : JsValue.plain ps = JsValue.plain ps' ↔ ps = ps' :=
  ⟨fun h => (JsValue.obj.inj h).2, fun h => by rw [h]⟩

theorem map_plain_eq_some {o : Option Props} {ps : Props} : o.map JsValue.plain = some (.plain ps) ↔ o = some ps := by
  cases o with
  | none => exact ⟨nofun, nofun⟩
  | some ps' => exact Option.some_inj.trans (plain_inj.trans Option.some_inj.symm)

theorem map_pair_eq_some {α β : Type} {a : α} {b : β} {o : Option β} :
    (o.map fun v => (a, v)) = some (a, b) ↔ o = some b := by
  cases o with
  | none => exact ⟨nofun, nofun⟩
  | some v => rw [Option.map_some, Option.some.injEq, Option.some.injEq, Prod.mk.injEq, and_iff_right rfl]

theorem setPairs_eq_iff (hnodup : (kvs.map Prod.fst).Nodup) :
    JsValue.plain ((kvs.map fun kv => (kv.1, parseValue (some (upTo EQUALS kv.2)))).foldl
        (fun result e => setProperty result (.str e.1) e.2) []) = pairsToJs kvs ↔ PairsKept kvs := by
  have hkeys : ((kvs.map fun kv => (kv.1, parseValue (some (upTo EQUALS kv.2)))).map Prod.fst).Nodup := by
    rw [List.map_map]
    exact hnodup
  rw [@foldl_setProperty_nodup _ [] hkeys, List.nil_append, List.filter_map, pairsToJs, plain_inj,
    List.map_filter_eq_map]
  refine forall₂_congr fun kv _ => ?_
  rw [Function.comp_apply, decide_eq_true_eq, Prod.mk.injEq, parseValue_inj, upTo_eq_self, and_iff_right rfl]

theorem parsePairs_eq_iff {terminated : Bool} (hne : sep1 ≠ EQUALS) {outer : List UInt16} (hsep : sep1 ∈ outer)
    (h : PairsRenderable outer EQUALS kvs) :
    JsValue.plain (parseKeyValue (renderPairs terminated sep1 EQUALS kvs) sep1 EQUALS) = pairsToJs kvs ↔
      PairsKept kvs := by
  rw [parseKeyValue, entries_renderPairs hne
    (fun kv hkv => ⟨(h.key kv hkv).2.2.2 _ hsep, (h.key kv hkv).1⟩) fun kv hkv => (h.value kv hkv).2 _ hsep]
  exact setPairs_eq_iff h.nodup

end

/-! ### The texts in a value -/

mutual
/-- The strings in a value, without the names of its properties. -/
def texts : JsValue → List JsString
  | .str s => [s]
  | .array xs => listTexts xs
  | .obj _ ps => propTexts ps
  | _ => []

def listTexts : List JsValue → List JsString
  | [] => []
  | x :: xs => texts x ++ listTexts xs

def propTexts : List (JsString × JsValue) → List JsString
  | [] => []
  | (_, x) :: ps => texts x ++ propTexts ps
end

theorem mem_listTexts {w : JsString} {xs : List JsValue} : w ∈ listTexts xs ↔ ∃ x ∈ xs, w ∈ texts x := by
  induction xs with
  | nil =>
    rw [listTexts]
    exact ⟨nofun, fun ⟨_, h, _⟩ => nomatch h⟩
  | cons x xs ih => rw [listTexts, List.mem_append, ih, List.exists_mem_cons_iff]

theorem mem_propTexts {w : JsString} {ps : Props} : w ∈ propTexts ps ↔ ∃ p ∈ ps, w ∈ texts p.2 := by
  induction ps with
  | nil =>
    rw [propTexts]
    exact ⟨nofun, fun ⟨_, h, _⟩ => nomatch h⟩
  | cons p ps ih =>
    obtain ⟨name, x⟩ := p
    rw [propTexts, List.mem_append, ih, List.exists_mem_cons_iff]

theorem mem_texts_str {w s : JsString} : w ∈ texts (.str s) ↔ w = s := by
  rw [texts, List.mem_singleton]

theorem mem_texts_array {w : JsString} {xs : List JsValue} : w ∈ texts (.array xs) ↔ ∃ x ∈ xs, w ∈ texts x := by
  rw [texts, mem_listTexts]

theorem mem_texts_obj {w : JsString} {cls : JsClass} {ps : Props} :
    w ∈ texts (.obj cls ps) ↔ ∃ p ∈ ps, w ∈ texts p.2 := by
  rw [texts, mem_propTexts]

theorem mem_texts_listToJs {w : JsString} {xs : List JsString} : w ∈ texts (listToJs xs) ↔ w ∈ xs := by
  rw [listToJs, mem_texts_array]
  constructor
  · rintro ⟨x, hx, hw⟩
    obtain ⟨s, hs, rfl⟩ := List.mem_map.1 hx
    rw [mem_texts_str] at hw
    exact hw ▸ hs
  · intro hw
    exact ⟨.str w, List.mem_map_of_mem hw, mem_texts_str.2 rfl⟩

/-- No text in the value has the character. -/
def Avoids (c : UInt16) (v : JsValue) : Prop := ∀ w ∈ texts v, c ∉ w

section
variable {c sep sep1 sep2 : UInt16} {s : JsString} {v output : JsValue}

theorem avoids_str : Avoids c (.str s) ↔ c ∉ s := by
  constructor
  · intro h
    exact h s (mem_texts_str.2 rfl)
  · intro h w hw
    rw [mem_texts_str.1 hw]
    exact h

theorem avoids_array {xs : List JsValue} : Avoids c (.array xs) ↔ ∀ x ∈ xs, Avoids c x := by
  constructor
  · intro h x hx w hw
    exact h w (mem_texts_array.2 ⟨x, hx, hw⟩)
  · intro h w hw
    obtain ⟨x, hx, hw⟩ := mem_texts_array.1 hw
    exact h x hx w hw

theorem avoids_obj {cls : JsClass} {ps : Props} : Avoids c (.obj cls ps) ↔ ∀ p ∈ ps, Avoids c p.2 := by
  constructor
  · intro h p hp w hw
    exact h w (mem_texts_obj.2 ⟨p, hp, hw⟩)
  · intro h w hw
    obtain ⟨p, hp, hw⟩ := mem_texts_obj.1 hw
    exact h p hp w hw

theorem avoids_listToJs {xs : List JsString} : Avoids c (listToJs xs) ↔ ∀ x ∈ xs, c ∉ x :=
  forall_congr' fun w => by rw [mem_texts_listToJs]

theorem avoids_parseValue {o : Option JsString} (h : ∀ s, o = some s → c ∉ s) : Avoids c (parseValue o) := by
  cases o with
  | none =>
    intro w hw
    change w ∈ [] at hw
    cases hw
  | some s =>
    rw [parseValue_some]
    split_ifs
    · intro w hw
      change w ∈ [] at hw
      cases hw
    · exact avoids_str.2 (h s rfl)

/-- What is split off a text has only its characters. -/
theorem avoids_splitEntry (h : c ∉ s) : Avoids c (splitEntry sep s).2 := by
  refine avoids_parseValue fun w hw hc => h ?_
  exact mem_of_mem_splitOn (List.mem_of_mem_take (List.mem_of_getElem? hw)) hc

theorem avoids_entries (h : c ∉ s) {e : JsString × JsValue} (he : e ∈ entries s sep1 sep2) : Avoids c e.2 := by
  obtain ⟨kv, hkv, rfl⟩ := List.mem_map.1 he
  exact avoids_splitEntry fun hc => h (mem_of_mem_splitOn (List.mem_of_mem_filter hkv) hc)

theorem avoids_foldl {es : List (JsString × JsValue)} (h : ∀ e ∈ es, Avoids c e.2) :
    Avoids c (.plain (es.foldl (fun result e => setProperty result (.str e.1) e.2) [])) := by
  refine avoids_obj.2 fun p hp => ?_
  exact h _ (lastValue_mem (mem_foldl_setProperty.1 hp).2)

theorem avoids_parseKeyValue (h : c ∉ s) : Avoids c (.plain (parseKeyValue s sep1 sep2)) :=
  avoids_foldl fun _ he => avoids_entries h he

theorem avoids_splitOn (h : c ∉ s) : ∀ p ∈ s.splitOn sep, c ∉ p := fun _ hp hc => h (mem_of_mem_splitOn hp hc)

theorem avoids_splitBins (h : c ∉ s) : Avoids c (splitBins s) := by
  have helems : ∀ elem ∈ s.splitOn COMMA, c ∉ elem := avoids_splitOn h
  have hstats : Avoids c (.plain ((binStats (s.splitOn COMMA)).foldl
      (fun stats e => setProperty stats (.str e.1) e.2) [])) := by
    refine avoids_foldl fun e he => ?_
    obtain ⟨elem, helem, rfl⟩ := List.mem_map.1 he
    exact avoids_splitEntry (helems elem (List.mem_of_mem_filter helem))
  have hnames : Avoids c (.array ((binNames (s.splitOn COMMA)).map .str)) :=
    avoids_listToJs.2 fun x hx => helems x (List.mem_of_mem_filter hx)
  refine avoids_obj.2 fun p hp => ?_
  rcases List.mem_cons.1 hp with rfl | hp
  · exact hstats
  · obtain rfl := List.mem_singleton.1 hp
    exact hnames

theorem avoids_smartParse (h : Avoids c v) : Avoids c (smartParse v) := by
  cases v with
  | str s =>
    have hs := avoids_str.1 h
    rw [smartParse]
    split_ifs
    · exact avoids_parseKeyValue hs
    · exact avoids_listToJs.2 (avoids_splitOn hs)
    · exact h
  | _ => exact h

theorem splitList_eq (s : JsString) (sep : UInt16) : splitList s sep =
    if (s.splitOn sep).getLast? = some [] then (s.splitOn sep).dropLast else s.splitOn sep := rfl

theorem avoids_splitString {sp : Separator} (h : Avoids c v) (hout : splitString v sp = some output) :
    Avoids c output := by
  cases v with
  | str s =>
    have hs := avoids_str.1 h
    cases sp with
    | char sep =>
      cases hout
      refine avoids_listToJs.2 fun x hx => ?_
      rw [splitList_eq] at hx
      split_ifs at hx
      · exact avoids_splitOn hs x (List.dropLast_subset _ hx)
      · exact avoids_splitOn hs x hx
    | pair c1 c2 =>
      cases hout
      exact avoids_parseKeyValue hs
    | splitBins =>
      cases hout
      exact avoids_splitBins hs
    | chop =>
      cases hout
      exact avoids_str.2 fun hc => hs (List.dropLast_subset _ hc)
    | smartParse =>
      cases hout
      exact avoids_smartParse h
  | _ =>
    cases sp with
    | smartParse =>
      cases hout
      exact h
    | _ => cases hout

theorem mapM_forall {α β : Type} {f : α → Option β} {P : β → Prop} {xs : List α} {ys : List β}
    (h : ∀ x ∈ xs, ∀ y, f x = some y → P y) (hys : xs.mapM f = some ys) : ∀ y ∈ ys, P y := by
  induction xs generalizing ys with
  | nil =>
    cases hys
    exact nofun
  | cons x xs ih =>
    rw [List.mapM_cons] at hys
    obtain ⟨y, hy, hys⟩ := Option.bind_eq_some_iff.1 hys
    obtain ⟨ys', hys', hys⟩ := Option.bind_eq_some_iff.1 hys
    cases hys
    exact List.forall_mem_cons.2 ⟨h x (.head _) y hy, ih (fun z hz => h z (.tail _ hz)) hys'⟩

theorem avoids_splitLevel {sp : Separator} (h : Avoids c v) (hout : splitLevel sp v = some output) :
    Avoids c output := by
  cases v with
  | str s => exact avoids_splitString h hout
  | array xs =>
    obtain ⟨ys, hys, rfl⟩ := Option.map_eq_some_iff.1 hout
    refine avoids_array.2 (mapM_forall (fun x hx y hy => ?_) hys)
    exact avoids_splitString (avoids_array.1 h x hx) hy
  | obj cls ps =>
    obtain ⟨qs, hqs, rfl⟩ := Option.map_eq_some_iff.1 hout
    refine avoids_obj.2 (mapM_forall (fun p hp q hq => ?_) hqs)
    obtain ⟨w, hw, rfl⟩ := Option.map_eq_some_iff.1 hq
    exact avoids_splitString (avoids_obj.1 h p hp) hw
  | _ =>
    cases hout
    exact h

/-- Splitting makes no characters up. -/
theorem avoids_deepSplitString {seps : List Separator} (h : Avoids c v)
    (hout : deepSplitString v seps = some output) : Avoids c output := by
  induction seps generalizing v with
  | nil =>
    cases hout
    exact h
  | cons sp seps ih =>
    rw [deepSplitString] at hout
    split_ifs at hout
    · cases hout
      exact h
    · obtain ⟨mid, hmid, hout⟩ := Option.bind_eq_some_iff.1 hout
      exact ih (avoids_splitLevel h hmid) hout

end

/-! ### What a structure says of its text -/

section
variable {c sep1 : UInt16} {kvs stats : Pairs} {names : List JsString} {terminated : Bool}

theorem avoids_value {s : JsString} (hc : isNumeric (Char.ofNat c.toNat) = false)
    (h : Avoids c (parseValue (some s))) : c ∉ s := by
  intro hs
  rw [parseValue_text (isCanonical_of_mem hc hs), avoids_str] at h
  exact h hs

theorem not_mem_renderPair {kv : JsString × JsString} (hc : isNumeric (Char.ofNat c.toNat) = false)
    (hne : c ≠ EQUALS) (hk : c ∉ kv.1) (h : Avoids c (parseValue (some kv.2))) : c ∉ renderPair EQUALS kv := by
  rw [renderPair, List.mem_append, List.mem_cons, not_or, not_or]
  exact ⟨hk, hne, avoids_value hc h⟩

theorem avoids_pairsToJs : Avoids c (pairsToJs kvs) ↔ ∀ kv ∈ kvs, Avoids c (parseValue (some kv.2)) := by
  rw [pairsToJs, avoids_obj, List.forall_mem_map]

theorem not_mem_renderPairs (hc : isNumeric (Char.ofNat c.toNat) = false) (h1 : c ≠ sep1) (h2 : c ≠ EQUALS)
    (hk : ∀ kv ∈ kvs, c ∉ kv.1) (h : Avoids c (pairsToJs kvs)) :
    c ∉ renderPairs terminated sep1 EQUALS kvs := by
  intro hm
  rcases mem_join hm with hm | ⟨p, hp, hm⟩
  · exact h1 hm
  · obtain ⟨kv, hkv, rfl⟩ := List.mem_map.1 hp
    exact not_mem_renderPair hc h2 (hk kv hkv) (avoids_pairsToJs.1 h kv hkv) hm

theorem avoids_binsToJs : Avoids c (binsToJs stats names) ↔
    Avoids c (pairsToJs stats) ∧ ∀ x ∈ names, c ∉ x := by
  rw [binsToJs, avoids_obj, List.forall_mem_cons, List.forall_mem_singleton, avoids_listToJs]

theorem not_mem_renderBins (hc : isNumeric (Char.ofNat c.toNat) = false) (h1 : c ≠ COMMA) (h2 : c ≠ EQUALS)
    (hk : ∀ kv ∈ stats, c ∉ kv.1) (h : Avoids c (binsToJs stats names)) : c ∉ renderBins stats names := by
  obtain ⟨hstats, hnames⟩ := avoids_binsToJs.1 h
  intro hm
  rcases mem_join hm with hm | ⟨p, hp, hm⟩
  · exact h1 hm
  · rcases List.mem_append.1 hp with hp | hp
    · obtain ⟨kv, hkv, rfl⟩ := List.mem_map.1 hp
      exact not_mem_renderPair hc h2 (hk kv hkv) (avoids_pairsToJs.1 hstats kv hkv) hm
    · exact hnames p hp hm

/-- A text with a TAB stands for a structure with a TAB. -/
theorem InfoValue.tab_not_mem {layout : Layout} {v : InfoValue layout} (hr : v.Renderable)
    (h : Avoids TAB v.toJs) : TAB ∉ v.render terminated := by
  have hnum : isNumeric (Char.ofNat TAB.toNat) = false := by decide
  have hlist : ∀ {xs : List JsString}, Avoids TAB (listToJs xs) → TAB ∉ join terminated SEMICOLON xs := by
    intro xs h hm
    rcases mem_join hm with hm | ⟨p, hp, hm⟩
    · exact absurd hm (by decide)
    · exact avoids_listToJs.1 h p hp hm
  cases v with
  | text s => exact avoids_value hnum h
  | smartList xs => exact hlist h
  | list xs => exact hlist h
  | smartPairs kvs => exact not_mem_renderPairs hnum (by decide) (by decide) (fun kv hkv => (hr.key kv hkv).2.2.1) h
  | pairs kvs => exact not_mem_renderPairs hnum (by decide) (by decide) (fun kv hkv => (hr.key kv hkv).2.2.1) h
  | chopped kvs =>
    rw [InfoValue.render, List.mem_append, not_or]
    exact ⟨not_mem_renderPairs hnum (by decide) (by decide) (fun kv hkv => (hr.key kv hkv).2.2.1) h, by decide⟩
  | @records sep hsep rs =>
    intro hm
    rcases mem_join hm with hm | ⟨p, hp, hm⟩
    · exact absurd hm (by decide)
    · obtain ⟨r, hrs, rfl⟩ := List.mem_map.1 hp
      have hne : TAB ≠ sep := by
        rcases hsep with rfl | rfl
        · decide
        · decide
      refine not_mem_renderPairs hnum hne (by decide) (fun kv hkv => ((hr r hrs).key kv hkv).2.2.1) ?_ hm
      exact avoids_array.1 h _ (List.mem_map_of_mem hrs)
  | bins stats names =>
    exact not_mem_renderBins hnum (by decide) (by decide) (fun kv hkv => (hr.1.key kv hkv).2.2.1) h
  | nsBins nss =>
    intro hm
    rcases mem_join hm with hm | ⟨p, hp, hm⟩
    · exact absurd hm (by decide)
    · obtain ⟨n', hn', rfl⟩ := List.mem_map.1 hp
      obtain ⟨n, hn, rfl⟩ := List.mem_map.1 hn'
      rw [renderPair, List.mem_append, List.mem_cons] at hm
      rcases hm with hm | hm | hm
      · exact (hr.2.1 n hn).2.2.1 hm
      · exact absurd hm (by decide)
      · refine not_mem_renderBins hnum (by decide) (by decide)
          (fun kv hkv => ((hr.2.2 n hn).1.key kv hkv).2.2.1) ?_ hm
        exact avoids_obj.1 h _ (List.mem_map_of_mem hn)

end

/-! ### Layouts -/

section
variable {terminated : Bool} {sep1 : UInt16} {kvs stats : Pairs} {names : List JsString}

theorem renderPairs_ne_nil {sep2 : UInt16} (h : kvs ≠ []) : sep2 ∈ renderPairs terminated sep1 sep2 kvs := by
  obtain ⟨kv, kvs', rfl⟩ := List.exists_cons_of_ne_nil h
  refine mem_join_of_mem (List.mem_map_of_mem (List.mem_cons_self ..)) ?_
  exact List.mem_append_right _ (.head _)

theorem isCanonical_renderPairs {sep2 : UInt16} (hc : isNumeric (Char.ofNat sep2.toNat) = false) :
    isCanonical (renderPairs terminated sep1 sep2 kvs) = false := by
  by_cases h : kvs = []
  · subst h
    rw [renderPairs, List.map_nil, join_nil]
    exact isCanonical_nil
  · exact isCanonical_of_mem hc (renderPairs_ne_nil h)

theorem isCanonical_records {rs : List Pairs} :
    isCanonical (join terminated SEMICOLON (rs.map (renderPairs false sep1 EQUALS))) = false := by
  rcases hs : join terminated SEMICOLON (rs.map (renderPairs false sep1 EQUALS)) with _ | ⟨c, s⟩
  · exact isCanonical_nil
  · have hm : c ∈ join terminated SEMICOLON (rs.map (renderPairs false sep1 EQUALS)) := by
      rw [hs]
      exact .head _
    rw [← hs]
    rcases mem_join hm with rfl | ⟨p, hp, hc⟩
    · exact isCanonical_of_mem (by decide) hm
    · obtain ⟨r, hr, rfl⟩ := List.mem_map.1 hp
      have hne : r ≠ [] := by
        rintro rfl
        rw [renderPairs, List.map_nil, join_nil] at hc
        cases hc
      exact isCanonical_of_mem (c := EQUALS) (by decide) (mem_join_of_mem hp (renderPairs_ne_nil hne))

/-- What `splitString` keeps of joined pieces: without a last separator, not a last empty piece. -/
theorem splitList_join {sep : UInt16} {pieces : List JsString} (h : ∀ p ∈ pieces, sep ∉ p) :
    splitList (join terminated sep pieces) sep =
      if terminated = false ∧ pieces.getLast? = some [] then pieces.dropLast else pieces := by
  rw [splitList_eq]
  cases terminated with
  | true =>
    have hlast : (pieces ++ [[]]).getLast? = some [] := List.getLast?_concat
    rw [splitOn_join_true h, if_pos hlast, List.dropLast_concat, if_neg fun h => nomatch h.1]
  | false =>
    by_cases hne : pieces = []
    · subst hne
      rw [join_nil, List.splitOn_nil]
      rfl
    · rw [splitOn_join h hne]
      simp only [true_and]

theorem dropLast_map_ne {α β : Type} {f g : α → β} {xs : List α} (h : xs ≠ []) :
    xs.dropLast.map f ≠ xs.map g := by
  intro he
  have := congrArg List.length he
  rw [List.length_map, List.length_map, List.length_dropLast] at this
  have := List.length_pos_of_ne_nil h
  omega

end

/-! ### Bins -/

section
variable {stats : Pairs} {names : List JsString}

theorem listToJs_inj {xs ys : List JsString} : listToJs xs = listToJs ys ↔ xs = ys := by
  refine ⟨fun h => ?_, fun h => by rw [h]⟩
  exact List.map_injective_iff.2 (fun s s' hs => JsValue.str.inj hs) (JsValue.array.inj h)

theorem splitBins_eq (s : JsString) : splitBins s =
    .plain [(JsString.lit "stats", .plain ((binStats (s.splitOn COMMA)).foldl
        (fun stats e => setProperty stats (.str e.1) e.2) [])),
      (JsString.lit "names", listToJs (binNames (s.splitOn COMMA)))] := rfl

theorem splitBins_renderBins (hs : PairsRenderable [COMMA] EQUALS stats) (hn : ListRenderable [COMMA] names)
    (hne : ¬(stats = [] ∧ names = [])) :
    (renderBins stats names).splitOn COMMA = stats.map (renderPair EQUALS) ++ names := by
  refine splitOn_join (fun p hp => ?_) fun h => ?_
  · rcases List.mem_append.1 hp with hp | hp
    · obtain ⟨kv, hkv, rfl⟩ := List.mem_map.1 hp
      rw [renderPair, List.mem_append, List.mem_cons, not_or, not_or]
      exact ⟨(hs.key kv hkv).2.2.2 _ (.head _), by decide, (hs.value kv hkv).2 _ (.head _)⟩
    · exact (hn p hp).2 _ (.head _)
  · rw [List.append_eq_nil_iff, List.map_eq_nil_iff] at h
    exact hne h

theorem splitBins_eq_iff (hs : PairsRenderable [COMMA] EQUALS stats) (hn : ListRenderable [COMMA] names) :
    splitBins (renderBins stats names) = binsToJs stats names ↔ BinsKept stats names := by
  by_cases hempty : stats = [] ∧ names = []
  · obtain ⟨rfl, rfl⟩ := hempty
    refine iff_of_false (fun h => ?_) fun h => h.2.2 ⟨rfl, rfl⟩
    have hnames := (List.cons.inj (List.cons.inj (plain_inj.1 h)).2).1
    cases hnames
  · have hpairs : ∀ p ∈ stats.map (renderPair EQUALS), EQUALS ∈ p := by
      intro p hp
      obtain ⟨kv, -, rfl⟩ := List.mem_map.1 hp
      exact List.mem_append_right _ (.head _)
    have hnames : binNames (stats.map (renderPair EQUALS) ++ names) = names.filter fun x => EQUALS ∉ x := by
      rw [binNames, List.filter_append, List.filter_eq_nil_iff.2, List.nil_append]
      intro p hp
      simp [hpairs p hp]
    have hstats : ∀ (h : ∀ x ∈ names, EQUALS ∉ x),
        binStats (stats.map (renderPair EQUALS) ++ names) =
          stats.map fun kv => (kv.1, parseValue (some (upTo EQUALS kv.2))) := by
      intro h
      have hnone : names.filter (fun elem => decide (EQUALS ∈ elem)) = [] := by
        rw [List.filter_eq_nil_iff]
        intro x hx
        simp [h x hx]
      have hall : (stats.map (renderPair EQUALS)).filter (fun elem => decide (EQUALS ∈ elem)) =
          stats.map (renderPair EQUALS) := by
        rw [List.filter_eq_self]
        intro p hp
        simp [hpairs p hp]
      rw [binStats, List.filter_append, hnone, hall, List.append_nil, List.map_map]
      exact List.map_congr_left fun kv hkv => splitEntry_renderPair (hs.key kv hkv).1
    have hkept : (∀ x ∈ names, EQUALS ∉ x) → (JsValue.plain ((binStats (stats.map (renderPair EQUALS) ++
        names)).foldl (fun result e => setProperty result (.str e.1) e.2) []) = pairsToJs stats ↔
          PairsKept stats) := by
      intro h
      rw [hstats h]
      exact setPairs_eq_iff hs.nodup
    rw [splitBins_eq, splitBins_renderBins hs hn hempty, hnames, binsToJs, plain_inj]
    have hfilter : listToJs (names.filter fun x => EQUALS ∉ x) = listToJs names ↔ ∀ x ∈ names, EQUALS ∉ x := by
      rw [listToJs_inj, List.filter_eq_self]
      exact forall₂_congr fun x _ => decide_eq_true_iff
    constructor
    · intro h
      have hnot := hfilter.1 (Prod.mk.inj (List.cons.inj (List.cons.inj h).2).1).2
      exact ⟨(hkept hnot).1 (Prod.mk.inj (List.cons.inj h).1).2, hnot, hempty⟩
    · rintro ⟨hpairs, hnot, -⟩
      rw [(hkept hnot).2 hpairs]
      exact congrArg (fun v => [_, (_, v)]) (hfilter.2 hnot)

end

/-! ### The round trip of a value -/

section
variable {terminated : Bool} {sep : UInt16}

theorem deepSplitString_text {s : JsString} {seps : List Separator} (h : isCanonical s = false) :
    deepSplitString (parseValue (some s)) seps = deepSplitString (.str s) seps := by
  rw [parseValue_text h]

theorem deepSplitString_canonical {s : JsString} {seps : List Separator} (h : isCanonical s = true) :
    deepSplitString (parseValue (some s)) seps = some (.num (stringToNumber s)) := by
  rw [parseValue_some, if_pos h]
  exact deepSplitString_other (.inr ⟨_, rfl⟩) seps

theorem kept_list_iff {xs : List JsString} (hr : ListRenderable [SEMICOLON] xs) :
    deepSplitString (parseValue (some (join terminated SEMICOLON xs))) [.char SEMICOLON] = some (listToJs xs) ↔
      isCanonical (join terminated SEMICOLON xs) = false ∧ (terminated = true ∨ xs.getLast? ≠ some []) := by
  cases hc : isCanonical (join terminated SEMICOLON xs) with
  | true =>
    rw [deepSplitString_canonical hc]
    exact iff_of_false nofun nofun
  | false =>
    rw [deepSplitString_text hc, and_iff_right rfl]
    change some (listToJs (splitList (join terminated SEMICOLON xs) SEMICOLON)) = _ ↔ _
    rw [splitList_join fun p hp => (hr p hp).2 _ (.head _), Option.some.injEq, listToJs_inj]
    split_ifs with h
    · obtain ⟨hterm, hlast⟩ := h
      have hne : xs ≠ [] := by
        rintro rfl
        cases hlast
      refine iff_of_false (fun he => ?_) fun h => ?_
      · exact dropLast_map_ne (f := id) (g := id) hne (by rw [List.map_id, List.map_id]; exact he)
      · rcases h with h | h
        · rw [hterm] at h
          cases h
        · exact h hlast
    · refine iff_of_true rfl ?_
      cases hterm : terminated with
      | true => exact .inl rfl
      | false => exact .inr fun hlast => h ⟨hterm, hlast⟩

theorem kept_records_iff {rs : List Pairs} (hsep : sep = COLON ∨ sep = COMMA)
    (hr : ∀ r ∈ rs, PairsRenderable [sep, SEMICOLON] EQUALS r) :
    deepSplitString (parseValue (some (join terminated SEMICOLON (rs.map (renderPairs false sep EQUALS)))))
        [.char SEMICOLON, .pair sep EQUALS] = some (.array (rs.map pairsToJs)) ↔
      (∀ r ∈ rs, PairsKept r) ∧ (terminated = true ∨ rs.getLast? ≠ some []) := by
  have hne : sep ≠ EQUALS ∧ SEMICOLON ≠ sep := by
    rcases hsep with rfl | rfl
    · exact ⟨by decide, by decide⟩
    · exact ⟨by decide, by decide⟩
  have hpieces : ∀ p ∈ rs.map (renderPairs false sep EQUALS), SEMICOLON ∉ p := by
    intro p hp hm
    obtain ⟨r, hrs, rfl⟩ := List.mem_map.1 hp
    rcases mem_join hm with hm | ⟨q, hq, hm⟩
    · exact hne.2 hm
    · obtain ⟨kv, hkv, rfl⟩ := List.mem_map.1 hq
      rw [renderPair, List.mem_append, List.mem_cons] at hm
      rcases hm with hm | hm | hm
      · exact ((hr r hrs).key kv hkv).2.2.2 _ (.tail _ (.head _)) hm
      · exact absurd hm (by decide)
      · exact ((hr r hrs).value kv hkv).2 _ (.tail _ (.head _)) hm
  have hempty : ∀ r : Pairs, renderPairs false sep EQUALS r = [] ↔ r = [] := by
    intro r
    constructor
    · intro h
      by_contra hr
      have hm : EQUALS ∈ renderPairs false sep EQUALS r := renderPairs_ne_nil hr
      rw [h] at hm
      cases hm
    · rintro rfl
      rw [renderPairs, List.map_nil, join_nil]
  have hlast : (rs.map (renderPairs false sep EQUALS)).getLast? = some [] ↔ rs.getLast? = some [] := by
    rw [List.getLast?_map, Option.map_eq_some_iff]
    constructor
    · rintro ⟨r, hr, h⟩
      rw [hr, (hempty r).1 h]
    · intro h
      exact ⟨[], h, (hempty []).2 rfl⟩
  have hlevel : ∀ rs' : List Pairs, splitLevel (.pair sep EQUALS)
      (.array ((rs'.map (renderPairs false sep EQUALS)).map .str)) =
        some (.array (rs'.map fun r => .plain (parseKeyValue (renderPairs false sep EQUALS r) sep EQUALS))) := by
    intro rs'
    have hall : rs'.mapM ((fun i => splitString i (.pair sep EQUALS)) ∘ JsValue.str ∘ renderPairs false sep EQUALS) =
        some (rs'.map fun r => .plain (parseKeyValue (renderPairs false sep EQUALS r) sep EQUALS)) :=
      List.mapM_eq_some_map.2 fun r _ => rfl
    rw [splitLevel, List.map_map, List.mapM_map, hall]
    rfl
  rw [deepSplitString_text isCanonical_records]
  change (splitLevel (.pair sep EQUALS) (listToJs (splitList _ SEMICOLON))).bind some = _ ↔ _
  rw [Option.bind_fun_some, splitList_join hpieces]
  split_ifs with h
  · rw [hlast] at h
    obtain ⟨hterm, hl⟩ := h
    rw [← List.map_dropLast, listToJs, hlevel, Option.some.injEq, JsValue.array.injEq]
    have hrs : rs ≠ [] := by
      rintro rfl
      cases hl
    refine iff_of_false (dropLast_map_ne hrs) fun h => ?_
    rcases h.2 with h | h
    · rw [hterm] at h
      cases h
    · exact h hl
  · rw [hlast] at h
    rw [listToJs, hlevel, Option.some.injEq, JsValue.array.injEq, List.map_inj_left]
    have hterm : terminated = true ∨ rs.getLast? ≠ some [] := by
      cases ht : terminated with
      | true => exact .inl rfl
      | false => exact .inr fun hl => h ⟨ht, hl⟩
    rw [and_iff_left hterm]
    exact forall₂_congr fun r hrs => parsePairs_eq_iff hne.1 (.head _) (hr r hrs)

theorem kept_bins_iff {stats : Pairs} {names : List JsString} (hs : PairsRenderable [COMMA] EQUALS stats)
    (hn : ListRenderable [COMMA] names) :
    deepSplitString (parseValue (some (renderBins stats names))) [.splitBins] = some (binsToJs stats names) ↔
      BinsKept stats names ∧ isCanonical (renderBins stats names) = false := by
  cases hc : isCanonical (renderBins stats names) with
  | true =>
    rw [deepSplitString_canonical hc]
    exact iff_of_false nofun nofun
  | false =>
    rw [deepSplitString_text hc, and_iff_left rfl, ← splitBins_eq_iff hs hn]
    exact Option.some_inj

theorem PairsRenderable.of_cons {outer : List UInt16} {c inner : UInt16} {kvs : Pairs}
    (h : PairsRenderable (c :: outer) inner kvs) : PairsRenderable [c] inner kvs where
  nodup := h.nodup
  key kv hkv := by
    obtain ⟨h1, h2, h3, h4⟩ := h.key kv hkv
    exact ⟨h1, h2, h3, fun d hd => h4 d (List.mem_singleton.1 hd ▸ .head _)⟩
  value kv hkv := ⟨(h.value kv hkv).1, fun d hd => (h.value kv hkv).2 d (List.mem_singleton.1 hd ▸ .head _)⟩

theorem ListRenderable.of_cons {outer : List UInt16} {c : UInt16} {xs : List JsString}
    (h : ListRenderable (c :: outer) xs) : ListRenderable [c] xs :=
  fun x hx => ⟨(h x hx).1, fun d hd => (h x hx).2 d (List.mem_singleton.1 hd ▸ .head _)⟩

theorem kept_namespace_iff {stats : Pairs} {names : List JsString} (hs : PairsRenderable [COMMA] EQUALS stats)
    (hcolon : ∀ kv ∈ stats, COLON ∉ kv.1) (hn : ListRenderable [COMMA] names) :
    splitString (parseValue (some (upTo COLON (renderBins stats names)))) .splitBins =
        some (binsToJs stats names) ↔
      BinsKept stats names ∧ COLON ∉ renderBins stats names ∧ isCanonical (renderBins stats names) = false := by
  constructor
  · intro h
    have hc : isCanonical (upTo COLON (renderBins stats names)) = false := by
      by_contra hc
      rw [Bool.not_eq_false] at hc
      rw [parseValue_some, if_pos hc] at h
      cases h
    rw [parseValue_text hc] at h
    have hbins := Option.some.inj h
    have hnot : COLON ∉ renderBins stats names := by
      have havoid : Avoids COLON (splitBins (upTo COLON (renderBins stats names))) :=
        avoids_splitBins sep_not_mem_upTo
      rw [hbins] at havoid
      exact not_mem_renderBins (by decide) (by decide) (by decide) hcolon havoid
    rw [upTo_eq_self.2 hnot] at hbins hc
    exact ⟨(splitBins_eq_iff hs hn).1 hbins, hnot, hc⟩
  · rintro ⟨hkept, hnot, hc⟩
    rw [upTo_eq_self.2 hnot, parseValue_text hc, ← (splitBins_eq_iff hs hn).2 hkept]
    rfl

theorem kept_nsBins_iff {nss : List (JsString × Pairs × List JsString)} (hr : (InfoValue.nsBins nss).Renderable) :
    deepSplitString (parseValue (some ((InfoValue.nsBins nss).render terminated)))
        [.pair SEMICOLON COLON, .splitBins] = some (InfoValue.nsBins nss).toJs ↔
      (InfoValue.nsBins nss).Kept terminated := by
  obtain ⟨hnodup, hkeys, hvalues⟩ := hr
  have hrender : ∀ n ∈ nss, SEMICOLON ∉ renderBins n.2.1 n.2.2 := by
    intro n hn hm
    rcases mem_join hm with hm | ⟨p, hp, hm⟩
    · exact absurd hm (by decide)
    · rcases List.mem_append.1 hp with hp | hp
      · obtain ⟨kv, hkv, rfl⟩ := List.mem_map.1 hp
        rw [renderPair, List.mem_append, List.mem_cons] at hm
        rcases hm with hm | hm | hm
        · exact ((hvalues n hn).1.key kv hkv).2.2.2 _ (.tail _ (.head _)) hm
        · exact absurd hm (by decide)
        · exact ((hvalues n hn).1.value kv hkv).2 _ (.tail _ (.head _)) hm
      · exact ((hvalues n hn).2.2 p hp).2 _ (.tail _ (.head _)) hm
  have hparse : parseKeyValue ((InfoValue.nsBins nss).render terminated) SEMICOLON COLON =
      ((nss.filter fun n => n.1 ≠ PROTO).map fun n =>
        (n.1, parseValue (some (upTo COLON (renderBins n.2.1 n.2.2))))) := by
    rw [InfoValue.render, parseKeyValue_renderPairs (by decide)]
    · rw [List.filter_map, List.map_map]
      rfl
    · rw [List.map_map]
      exact hnodup
    · intro kv hkv
      obtain ⟨n, hn, rfl⟩ := List.mem_map.1 hkv
      exact ⟨(hkeys n hn).2.2.2, (hkeys n hn).1⟩
    · intro kv hkv
      obtain ⟨n, hn, rfl⟩ := List.mem_map.1 hkv
      exact hrender n hn
  have hc : isCanonical ((InfoValue.nsBins nss).render terminated) = false :=
    @isCanonical_renderPairs terminated SEMICOLON (nss.map renderNsBins) COLON (by decide)
  rw [deepSplitString_text hc]
  change (((parseKeyValue ((InfoValue.nsBins nss).render terminated) SEMICOLON COLON).mapM fun p =>
    (splitString p.2 .splitBins).map fun v => (p.1, v)).map JsValue.plain).bind some = _ ↔ _
  rw [Option.bind_fun_some, hparse, List.mapM_map]
  rw [InfoValue.toJs, map_plain_eq_some, List.mapM_filter_eq_some]
  refine forall₂_congr fun n hn => ?_
  obtain ⟨hs, hcolon, hl⟩ := hvalues n hn
  rw [Function.comp_apply, map_pair_eq_some, decide_eq_true_eq, ← kept_namespace_iff hs.of_cons hcolon hl.of_cons]

theorem deepSplitString_smart (s : JsString) :
    deepSplitString (parseValue (some s)) [.smartParse] =
      some (if isCanonical s then parseValue (some s) else smartParse (.str s)) := by
  cases hc : isCanonical s with
  | true =>
    rw [deepSplitString_canonical hc, if_pos rfl, parseValue_some, if_pos hc]
  | false =>
    rw [deepSplitString_text hc, if_neg Bool.false_ne_true]
    rfl

theorem kept_text_iff (s : JsString) :
    deepSplitString (parseValue (some s)) [.smartParse] = some (parseValue (some s)) ↔ SEMICOLON ∉ s := by
  rw [deepSplitString_smart, Option.some.injEq]
  cases hc : isCanonical s with
  | true =>
    rw [if_pos rfl]
    refine iff_of_true rfl fun hm => ?_
    rw [isCanonical_of_mem (by decide) hm] at hc
    cases hc
  | false =>
    rw [if_neg Bool.false_ne_true, parseValue_text hc, smartParse]
    split_ifs with h1 h2
    · exact iff_of_false nofun fun h => h h1
    · exact iff_of_false nofun fun h => h h1
    · exact iff_of_true rfl h1

/-- Without a separator a text stays a text. -/
theorem smart_of_not_mem {s : JsString} (h : SEMICOLON ∉ s) :
    deepSplitString (parseValue (some s)) [.smartParse] = some (parseValue (some s)) := (kept_text_iff s).2 h

theorem parseValue_ne_object {s : JsString} {cls : JsClass} {ps : Props} {xs : List JsValue} :
    parseValue (some s) ≠ .obj cls ps ∧ parseValue (some s) ≠ .array xs := by
  rw [parseValue_some]
  split_ifs
  · exact ⟨nofun, nofun⟩
  · exact ⟨nofun, nofun⟩

theorem kept_smartList_iff {xs : List JsString} (hr : ListRenderable [SEMICOLON] xs) :
    deepSplitString (parseValue (some (join terminated SEMICOLON xs))) [.smartParse] = some (listToJs xs) ↔
      terminated = false ∧ 2 ≤ xs.length ∧ ∀ x ∈ xs, EQUALS ∉ x := by
  by_cases hsep : 2 ≤ xs.length ∨ (terminated = true ∧ xs ≠ [])
  · have hm : SEMICOLON ∈ join terminated SEMICOLON xs := sep_mem_join hsep
    have hequals : EQUALS ∈ join terminated SEMICOLON xs ↔ ∃ x ∈ xs, EQUALS ∈ x := by
      constructor
      · intro h
        rcases mem_join h with h | h
        · exact absurd h (by decide)
        · exact h
      · rintro ⟨x, hx, h⟩
        exact mem_join_of_mem hx h
    rw [deepSplitString_smart, isCanonical_of_mem (by decide) hm, if_neg Bool.false_ne_true, smartParse, if_pos hm,
      Option.some.injEq]
    split_ifs with heq
    · rw [hequals] at heq
      obtain ⟨x, hx, heq⟩ := heq
      exact iff_of_false nofun fun h => h.2.2 x hx heq
    · have hnone : ∀ x ∈ xs, EQUALS ∉ x := fun x hx h => heq (hequals.2 ⟨x, hx, h⟩)
      have hpieces : ∀ p ∈ xs, SEMICOLON ∉ p := fun p hp => (hr p hp).2 _ (.head _)
      change listToJs _ = _ ↔ _
      rw [listToJs_inj]
      cases hterm : terminated with
      | true =>
        rw [splitOn_join_true hpieces]
        refine iff_of_false (fun h => ?_) fun h => nomatch h.1
        have := congrArg List.length h
        rw [List.length_append, List.length_singleton] at this
        omega
      | false =>
        have hlen : 2 ≤ xs.length := by
          rcases hsep with h | ⟨h, -⟩
          · exact h
          · rw [hterm] at h
            cases h
        have hne : xs ≠ [] := by
          rintro rfl
          exact absurd hlen (by simp)
        rw [splitOn_join hpieces hne]
        exact iff_of_true rfl ⟨rfl, hlen, hnone⟩
  · rw [not_or] at hsep
    refine iff_of_false (fun h => ?_) fun h => hsep.1 h.2.1
    have hnot : SEMICOLON ∉ join terminated SEMICOLON xs := by
      rcases xs with _ | ⟨x, _ | ⟨y, xs⟩⟩
      · rw [join_nil]
        exact nofun
      · have hterm : terminated = false := by
          by_contra ht
          exact hsep.2 ⟨(Bool.not_eq_false _).mp ht, nofun⟩
        rw [hterm, join_singleton]
        exact (hr x (.head _)).2 _ (.head _)
      · exact absurd (by simp) hsep.1
    rw [smart_of_not_mem hnot] at h
    exact (@parseValue_ne_object _ plainClass [] _).2 (Option.some.inj h)

theorem kept_smartPairs_iff {kvs : Pairs} (hr : PairsRenderable [SEMICOLON] EQUALS kvs) :
    deepSplitString (parseValue (some (renderPairs terminated SEMICOLON EQUALS kvs))) [.smartParse] =
        some (pairsToJs kvs) ↔
      PairsKept kvs ∧ (2 ≤ kvs.length ∨ (terminated = true ∧ kvs ≠ [])) := by
  have hlen : (kvs.map (renderPair EQUALS)).length = kvs.length := List.length_map ..
  by_cases hsep : 2 ≤ kvs.length ∨ (terminated = true ∧ kvs ≠ [])
  · have hne : kvs ≠ [] := by
      rintro rfl
      rcases hsep with h | ⟨-, h⟩
      · exact absurd h (by simp)
      · exact h rfl
    have hm : SEMICOLON ∈ renderPairs terminated SEMICOLON EQUALS kvs := by
      refine sep_mem_join ?_
      rw [hlen, ne_eq, List.map_eq_nil_iff]
      exact hsep
    rw [deepSplitString_smart, isCanonical_of_mem (by decide) hm, if_neg Bool.false_ne_true, smartParse, if_pos hm,
      if_pos (renderPairs_ne_nil hne), Option.some.injEq, parsePairs_eq_iff (by decide) (.head _) hr,
      and_iff_left hsep]
  · refine iff_of_false (fun h => ?_) fun h => hsep h.2
    rw [not_or] at hsep
    have hnot : SEMICOLON ∉ renderPairs terminated SEMICOLON EQUALS kvs := by
      rcases kvs with _ | ⟨kv, _ | ⟨kv', kvs⟩⟩
      · rw [renderPairs, List.map_nil, join_nil]
        exact nofun
      · have hterm : terminated = false := by
          by_contra ht
          exact hsep.2 ⟨(Bool.not_eq_false _).mp ht, nofun⟩
        rw [hterm, renderPairs, List.map_singleton, join_singleton, renderPair, List.mem_append, List.mem_cons,
          not_or, not_or]
        exact ⟨(hr.key kv (.head _)).2.2.2 _ (.head _), by decide, (hr.value kv (.head _)).2 _ (.head _)⟩
      · exact absurd (by simp) hsep.1
    rw [smart_of_not_mem hnot] at h
    exact (@parseValue_ne_object _ _ _ []).1 (Option.some.inj h)

theorem InfoValue.kept_iff {layout : Layout} (v : InfoValue layout) (hr : v.Renderable) :
    deepSplitString (parseValue (some (v.render terminated))) layout.separators = some v.toJs ↔
      v.Kept terminated := by
  have hpairs : ∀ {sep : UInt16} {kvs : Pairs}, sep ≠ EQUALS → PairsRenderable [sep] EQUALS kvs →
      (some (JsValue.plain (parseKeyValue (renderPairs terminated sep EQUALS kvs) sep EQUALS)) =
        some (pairsToJs kvs) ↔ PairsKept kvs) := by
    intro sep kvs hne hr
    rw [Option.some.injEq]
    exact parsePairs_eq_iff hne (.head _) hr
  cases v with
  | text s => exact kept_text_iff s
  | smartList xs => exact kept_smartList_iff hr
  | smartPairs kvs => exact kept_smartPairs_iff hr
  | list xs => exact kept_list_iff hr
  | pairs kvs =>
    rw [InfoValue.render, deepSplitString_text (isCanonical_renderPairs (by decide))]
    exact hpairs (by decide) hr
  | chopped kvs =>
    have hc : isCanonical (renderPairs terminated COLON EQUALS kvs ++ [SEMICOLON]) = false :=
      isCanonical_of_mem (c := SEMICOLON) (by decide) (List.mem_append_right _ (.head _))
    rw [InfoValue.render, deepSplitString_text hc]
    change some (JsValue.plain (parseKeyValue (chop _) COLON EQUALS)) = _ ↔ _
    rw [chop, List.dropLast_concat]
    exact hpairs (by decide) hr
  | records hsep rs => exact kept_records_iff hsep hr
  | bins stats names => exact kept_bins_iff hr.1 hr.2
  | nsBins nss => exact kept_nsBins_iff hr

end

/-! ### The round trip of a response -/

theorem newline_not_mem_pairs {terminated : Bool} {sep1 : UInt16} {outer : List UInt16} {kvs : Pairs}
    (hne : NEWLINE ≠ sep1) (hr : PairsRenderable outer EQUALS kvs) :
    NEWLINE ∉ renderPairs terminated sep1 EQUALS kvs := by
  intro hm
  rcases mem_join hm with hm | ⟨p, hp, hm⟩
  · exact hne hm
  · obtain ⟨kv, hkv, rfl⟩ := List.mem_map.1 hp
    rw [renderPair, List.mem_append, List.mem_cons] at hm
    rcases hm with hm | hm | hm
    · exact (hr.key kv hkv).2.1 hm
    · exact absurd hm (by decide)
    · exact (hr.value kv hkv).1 hm

theorem newline_not_mem_bins {stats : Pairs} {names : List JsString} {outer outer' : List UInt16}
    (hs : PairsRenderable outer EQUALS stats) (hn : ListRenderable outer' names) :
    NEWLINE ∉ renderBins stats names := by
  intro hm
  rcases mem_join hm with hm | ⟨p, hp, hm⟩
  · exact absurd hm (by decide)
  · rcases List.mem_append.1 hp with hp | hp
    · have hpairs : NEWLINE ∉ renderPairs false COMMA EQUALS stats := newline_not_mem_pairs (by decide) hs
      exact hpairs (mem_join_of_mem hp hm)
    · exact (hn p hp).1 hm

/-- The text of a value stands on one line. -/
theorem InfoValue.newline_not_mem {layout : Layout} {v : InfoValue layout} {terminated : Bool}
    (hr : v.Renderable) : NEWLINE ∉ v.render terminated := by
  have hlist : ∀ {xs : List JsString}, ListRenderable [SEMICOLON] xs →
      NEWLINE ∉ join terminated SEMICOLON xs := by
    intro xs hr hm
    rcases mem_join hm with hm | ⟨p, hp, hm⟩
    · exact absurd hm (by decide)
    · exact (hr p hp).1 hm
  cases v with
  | text s => exact hr
  | smartList xs => exact hlist hr
  | list xs => exact hlist hr
  | smartPairs kvs => exact newline_not_mem_pairs (by decide) hr
  | pairs kvs => exact newline_not_mem_pairs (by decide) hr
  | chopped kvs =>
    rw [InfoValue.render, List.mem_append, not_or]
    exact ⟨newline_not_mem_pairs (by decide) hr, by decide⟩
  | @records sep hsep rs =>
    have hne : NEWLINE ≠ sep := by
      rcases hsep with rfl | rfl
      · decide
      · decide
    intro hm
    rcases mem_join hm with hm | ⟨p, hp, hm⟩
    · exact absurd hm (by decide)
    · obtain ⟨r, hrs, rfl⟩ := List.mem_map.1 hp
      exact newline_not_mem_pairs hne (hr r hrs) hm
  | bins stats names => exact newline_not_mem_bins hr.1 hr.2
  | nsBins nss =>
    intro hm
    rcases mem_join hm with hm | ⟨p, hp, hm⟩
    · exact absurd hm (by decide)
    · obtain ⟨kv, hkv, rfl⟩ := List.mem_map.1 hp
      obtain ⟨n, hn, rfl⟩ := List.mem_map.1 hkv
      rw [renderPair, List.mem_append, List.mem_cons] at hm
      rcases hm with hm | hm | hm
      · exact (hr.2.1 n hn).2.1 hm
      · exact absurd hm (by decide)
      · exact newline_not_mem_bins (hr.2.2 n hn).1 (hr.2.2 n hn).2.2 hm

section
variable {minimatch : JsString → Row → Bool} {terminated : Bool} {lines : List (InfoLine minimatch)}

theorem parse_eq (info : JsString) : parse minimatch info =
    ((parseKeyValue info NEWLINE TAB).mapM fun p =>
      (deepSplitString p.2 (getSeparators minimatch p.1)).map fun v => (p.1, v)).map .plain := by
  rw [parse]
  split_ifs with h
  · rw [h]
    rfl
  · rfl

theorem InfoLine.kept_iff (l : InfoLine minimatch) (hr : l.value.Renderable) :
    (l.key ≠ PROTO ∧ deepSplitString (parseValue (some (upTo TAB l.text))) (getSeparators minimatch l.key) =
      some l.value.toJs) ↔ l.Kept := by
  rw [getSeparators, ← separators_layoutOf, InfoLine.Kept]
  refine and_congr_right fun _ => ?_
  constructor
  · intro h
    have htab : TAB ∉ l.text := by
      refine InfoValue.tab_not_mem hr (avoids_deepSplitString ?_ h)
      refine avoids_parseValue fun s hs => ?_
      cases hs
      exact sep_not_mem_upTo
    rw [upTo_eq_self.2 htab] at h
    exact ⟨htab, (l.value.kept_iff hr).1 h⟩
  · rintro ⟨htab, h⟩
    rw [upTo_eq_self.2 htab]
    exact (l.value.kept_iff hr).2 h

/-- What parsing makes of the text of a response: each value up to its first TAB is split. -/
theorem parse_renderInfo (hr : InfoRenderable lines) : parse minimatch (renderInfo terminated lines) =
    ((lines.filter fun l => l.key ≠ PROTO).mapM fun l =>
      (deepSplitString (parseValue (some (upTo TAB l.text))) (getSeparators minimatch l.key)).map
        fun v => (l.key, v)).map .plain := by
  have hnodup : ((lines.map fun l => (l.key, l.text)).map Prod.fst).Nodup := by
    rw [List.map_map]
    exact hr.nodup
  have hkey : ∀ kv ∈ lines.map fun l => (l.key, l.text), NEWLINE ∉ kv.1 ∧ TAB ∉ kv.1 := by
    intro kv hkv
    obtain ⟨l, hl, rfl⟩ := List.mem_map.1 hkv
    exact hr.key l hl
  have hvalue : ∀ kv ∈ lines.map fun l => (l.key, l.text), NEWLINE ∉ kv.2 := by
    intro kv hkv
    obtain ⟨l, hl, rfl⟩ := List.mem_map.1 hkv
    exact InfoValue.newline_not_mem (hr.value l hl)
  have hparse : parseKeyValue (renderInfo terminated lines) NEWLINE TAB =
      (lines.filter fun l => l.key ≠ PROTO).map fun l => (l.key, parseValue (some (upTo TAB l.text))) := by
    rw [renderInfo, parseKeyValue_renderPairs (by decide) hnodup hkey hvalue, List.filter_map, List.map_map]
    rfl
  rw [parse_eq, hparse, List.mapM_map]
  rfl

/-- A response comes back from its text exactly if every line is kept. -/
theorem parse_render_iff (minimatch : JsString → Row → Bool) (terminated : Bool)
    (lines : List (InfoLine minimatch)) (hr : InfoRenderable lines) :
    parse minimatch (renderInfo terminated lines) = some (infoToJs lines) ↔ ∀ l ∈ lines, l.Kept := by
  rw [parse_renderInfo hr, infoToJs, map_plain_eq_some, List.mapM_filter_eq_some]
  refine forall₂_congr fun l hl => ?_
  rw [map_pair_eq_some, decide_eq_true_eq]
  exact l.kept_iff (hr.value l hl)

end

/-- A response about one namespace, the pattern of whose key is `namespace/*`. -/
def namespaceLine (kvs : Pairs) : InfoLine (fun _ row => row = .namespaceOf) where
  key := JsString.lit "namespace/test"
  value := .pairs kvs
  terminated := false

theorem namespaceLine_renderable {kvs : Pairs} (h : PairsRenderable [SEMICOLON] EQUALS kvs) :
    InfoRenderable [namespaceLine kvs] where
  nodup := List.nodup_singleton _
  key := by
    intro l hl
    rw [List.mem_singleton.1 hl]
    change NEWLINE ∉ JsString.lit "namespace/test" ∧ TAB ∉ JsString.lit "namespace/test"
    decide
  value := List.forall_mem_singleton.2 h

/-- Of `foo=a=b` the value ends at the second `=`. -/
theorem namespace_value_truncated :
    renderInfo false [namespaceLine [(JsString.lit "foo", JsString.lit "a=b")]] =
        JsString.lit "namespace/test\tfoo=a=b" ∧
      parse (fun _ row => row = .namespaceOf) (JsString.lit "namespace/test\tfoo=a=b") =
        some (.plain [(JsString.lit "namespace/test", .plain [(JsString.lit "foo", .str (JsString.lit "a"))])]) ∧
      infoToJs [namespaceLine [(JsString.lit "foo", JsString.lit "a=b")]] =
        .plain [(JsString.lit "namespace/test", .plain [(JsString.lit "foo", .str (JsString.lit "a=b"))])] := by
  have ha : parseValue (some (JsString.lit "a")) = .str (JsString.lit "a") := parseValue_text (by decide +kernel)
  have hab : parseValue (some (JsString.lit "a=b")) = .str (JsString.lit "a=b") :=
    parseValue_text (by decide +kernel)
  have hline : parseKeyValue (JsString.lit "namespace/test\tfoo=a=b") NEWLINE TAB =
      [(JsString.lit "namespace/test", parseValue (some (JsString.lit "foo=a=b")))] :=
    @parseKeyValue_pair NEWLINE TAB (JsString.lit "namespace/test") (JsString.lit "foo=a=b") (by decide)
      (by decide) (by decide) (by decide)
  have hpair : parseKeyValue (JsString.lit "foo=a=b") SEMICOLON EQUALS =
      [(JsString.lit "foo", parseValue (some (JsString.lit "a")))] :=
    @parseKeyValue_pair SEMICOLON EQUALS (JsString.lit "foo") (JsString.lit "a=b") (by decide) (by decide)
      (by decide) (by decide)
  refine ⟨by decide +kernel, ?_, ?_⟩
  · rw [parse_eq, hline, parseValue_text (by decide +kernel)]
    change some (JsValue.plain [(_, .plain (parseKeyValue (JsString.lit "foo=a=b") SEMICOLON EQUALS))]) = _
    rw [hpair, ha]
  · change JsValue.plain [(_, .plain [(_, parseValue (some (JsString.lit "a=b")))])] = _
    rw [hab]
    rfl

theorem namespace_value_returns :
    InfoRenderable [namespaceLine [(JsString.lit "foo", JsString.lit "a")]] ∧
      parse (fun _ row => row = .namespaceOf)
          (renderInfo false [namespaceLine [(JsString.lit "foo", JsString.lit "a")]]) =
        some (infoToJs [namespaceLine [(JsString.lit "foo", JsString.lit "a")]]) := by
  have hr : InfoRenderable [namespaceLine [(JsString.lit "foo", JsString.lit "a")]] := by
    refine namespaceLine_renderable ⟨List.nodup_singleton _, ?_, ?_⟩
    · refine List.forall_mem_singleton.2 ⟨by decide, by decide, by decide, ?_⟩
      exact List.forall_mem_singleton.2 (by decide)
    · exact List.forall_mem_singleton.2 ⟨by decide, List.forall_mem_singleton.2 (by decide)⟩
  have hkept : PairsKept [(JsString.lit "foo", JsString.lit "a")] := List.forall_mem_singleton.2 (by decide +kernel)
  refine ⟨hr, (parse_render_iff _ false _ hr).2 (List.forall_mem_singleton.2 ⟨by decide, by decide, hkept⟩)⟩

end AerospikeNode.Info

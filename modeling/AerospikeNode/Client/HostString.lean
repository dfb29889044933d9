import AerospikeNode.Js.Arith
import AerospikeNode.Lib.Regex
import AerospikeNode.Lib.Split

/-!
# Hosts written as a string

`parseHostString` (`lib/utils.js`) matches a string with `HOST_RE`: an address, and behind colons a TLS name and
a port, each of which may be missing. An address is an IPv6 address in brackets, an IPv4 address or a host name;
a TLS name starts with a letter, a port with a digit, so that a string has one reading only
(`HostText.text_inj`).

`roundTrips_iff` says which hosts are read back from the string they are written as.
-/

namespace AerospikeNode.HostString

def OPEN : UInt16 := 91
def CLOSE : UInt16 := 93
def COLON : UInt16 := 58
def DOT : UInt16 := 46

/-! ### The expression -/

def inRange (lo hi : Char) (n : ℕ) : Bool := lo.toNat ≤ n && n ≤ hi.toNat

def toLower (n : ℕ) : ℕ := if inRange 'A' 'Z' n then n + 32 else n
def toUpper (n : ℕ) : ℕ := if inRange 'a' 'z' n then n - 32 else n

/-- A class of ASCII characters under the flag `i`, which adds no others to it than ASCII letters. -/
def ignoreCase (p : ℕ → Bool) (u : UInt16) : Bool := p u.toNat || p (toLower u.toNat) || p (toUpper u.toNat)

/-- `\d` -/
def isDigit (u : UInt16) : Bool := inRange '0' '9' u.toNat

/-- `[0-9a-f:]` -/
def isHexOrColon : UInt16 → Bool :=
  ignoreCase fun n => inRange '0' '9' n || inRange 'a' 'f' n || inRange ':' ':' n

/-- `[a-z]` -/
def isLetter : UInt16 → Bool := ignoreCase (inRange 'a' 'z')

/-- `[a-z0-9\-.]` -/
def isNameChar : UInt16 → Bool :=
  ignoreCase fun n => inRange 'a' 'z' n || inRange '0' '9' n || inRange '-' '-' n || inRange '.' '.' n

def one (u : UInt16) : Regex UInt16 := .char (· = u)

/-- `\d{1,3}` -/
def octet : Regex UInt16 := (Regex.char isDigit).between 1 2

/-- `[a-z][a-z0-9\-.]+` -/
def name : Regex UInt16 := .seq (.char isLetter) (Regex.char isNameChar).plus

/-- `\[[0-9a-f:]+]` -/
def ipv6 : Regex UInt16 := .seq (one OPEN) (.seq (Regex.char isHexOrColon).plus (one CLOSE))

/-- `(?:\d{1,3}\.){3}\d{1,3}` -/
def ipv4 : Regex UInt16 := .seq ((Regex.seq octet (one DOT)).times 3) octet

/-- `(?::(r))?` -/
def optionalPart (n : ℕ) (r : Regex UInt16) : Regex UInt16 := Regex.opt (.seq (one COLON) (.group n r))

def HOST_RE : Regex UInt16 :=
  .seq (.group 1 (.alt ipv6 (.alt ipv4 name)))
    (.seq (optionalPart 2 name) (optionalPart 3 (Regex.char isDigit).plus))

/-! ### The function -/

structure Host where
  addr : JsString
  tlsname : Option JsString
  port : JsNumber

/-- `Number.parseInt(s, 10)` of a string that starts with neither white space nor a sign. -/
def parseInt10 (s : JsString) : JsNumber :=
  ((digitsValue 10 ((s.takeWhile isDigit).map fun u => Char.ofNat u.toNat)).map fun n => .ofRat n).getD .nan

/-- `addr` without the brackets around it. -/
def stripBrackets (addr : JsString) : JsString :=
  if addr.head? = some OPEN ∧ addr.getLast? = some CLOSE then (addr.drop 1).take (addr.length - 2) else addr

/-- The string, if it is not empty. -/
def truthy : Option JsString → Option JsString
  | some s => if s.isEmpty then none else some s
  | none => none

/-- `none` where it throws. -/
def parseHostString (hostString : JsString) : Option Host :=
  (HOST_RE.exec hostString).map fun parts =>
    { addr := stripBrackets ((parts.get 1).getD [])
      tlsname := truthy (parts.get 2)
      port := match truthy (parts.get 3) with
        | some port => parseInt10 port
        | none => .ofInt32 3000 }

/-! ### Characters -/

section
variable {u : UInt16}

theorem isDigit_iff : isDigit u = true ↔ 48 ≤ u.toNat ∧ u.toNat ≤ 57 := by
  simp [isDigit, inRange]

theorem isHexOrColon_iff : isHexOrColon u = true ↔
    48 ≤ u.toNat ∧ u.toNat ≤ 58 ∨ 65 ≤ u.toNat ∧ u.toNat ≤ 70 ∨ 97 ≤ u.toNat ∧ u.toNat ≤ 102 := by
  simp [isHexOrColon, ignoreCase, toLower, toUpper, inRange]
  split_ifs <;> omega

theorem isLetter_iff : isLetter u = true ↔
    65 ≤ u.toNat ∧ u.toNat ≤ 90 ∨ 97 ≤ u.toNat ∧ u.toNat ≤ 122 := by
  simp [isLetter, ignoreCase, toLower, toUpper, inRange]
  split_ifs <;> omega

theorem isNameChar_iff : isNameChar u = true ↔ 48 ≤ u.toNat ∧ u.toNat ≤ 57 ∨ u.toNat = 45 ∨ u.toNat = 46 ∨
    65 ≤ u.toNat ∧ u.toNat ≤ 90 ∨ 97 ≤ u.toNat ∧ u.toNat ≤ 122 := by
  simp [isNameChar, ignoreCase, toLower, toUpper, inRange]
  split_ifs <;> omega

end

/-! ### The strings it matches -/

structure IsOctet (s : JsString) : Prop where
  ne_nil : s ≠ []
  length_le : s.length ≤ 3
  digits : ∀ u ∈ s, isDigit u = true

/-- Four groups of digits with dots between them. -/
def IsIPv4 (s : JsString) : Prop := ∃ a b c d, IsOctet a ∧ IsOctet b ∧ IsOctet c ∧ IsOctet d ∧
  s = (a ++ [DOT]) ++ ((b ++ [DOT]) ++ ((c ++ [DOT]) ++ d))

def IsName (s : JsString) : Prop :=
  ∃ u rest, s = u :: rest ∧ isLetter u = true ∧ rest ≠ [] ∧ ∀ v ∈ rest, isNameChar v = true

structure IsDigits (s : JsString) : Prop where
  ne_nil : s ≠ []
  digits : ∀ u ∈ s, isDigit u = true

inductive Address where
  | ipv6 (x : JsString) (ne_nil : x ≠ []) (hex : ∀ u ∈ x, isHexOrColon u = true)
  | plain (x : JsString) (h : IsIPv4 x ∨ IsName x)

namespace Address

def text : Address → JsString
  | ipv6 x _ _ => OPEN :: (x ++ [CLOSE])
  | plain x _ => x

/-- The address without brackets. -/
def value : Address → JsString
  | ipv6 x _ _ => x
  | plain x _ => x

end Address

/-- The parts of a host string. -/
structure HostText where
  addr : Address
  tlsname : Option JsString
  port : Option JsString
  tlsname_ok : ∀ t, tlsname = some t → IsName t
  port_ok : ∀ p, port = some p → IsDigits p

/-- A part behind a colon, if there is one. -/
def part : Option JsString → JsString
  | some s => COLON :: s
  | none => []

def group (n : ℕ) : Option JsString → Regex.Captures UInt16
  | some s => [(n, s)]
  | none => []

namespace HostText

def text (p : HostText) : JsString := p.addr.text ++ (part p.tlsname ++ part p.port)

def captures (p : HostText) : Regex.Captures UInt16 := (1, p.addr.text) :: (group 2 p.tlsname ++ group 3 p.port)

end HostText

section
variable {s : JsString} {cs : Regex.Captures UInt16}

theorem matches_one {u : UInt16} : Regex.Matches (one u) s cs ↔ s = [u] ∧ cs = [] := by
  simp [one]

theorem matches_octet : Regex.Matches octet s cs ↔ IsOctet s ∧ cs = [] := by
  unfold octet
  rw [Regex.matches_between_char]
  constructor
  · rintro ⟨hne, hlen, hall, rfl⟩
    exact ⟨⟨hne, hlen, hall⟩, rfl⟩
  · rintro ⟨h, rfl⟩
    exact ⟨h.ne_nil, h.length_le, h.digits, rfl⟩

theorem matches_name : Regex.Matches name s cs ↔ IsName s ∧ cs = [] := by
  unfold name
  rw [Regex.matches_char_seq]
  constructor
  · rintro ⟨u, rest, hu, rfl, h⟩
    obtain ⟨hne, hall, rfl⟩ := Regex.matches_plus_char.1 h
    exact ⟨⟨u, rest, rfl, hu, hne, hall⟩, rfl⟩
  · rintro ⟨⟨u, rest, rfl, hu, hne, hall⟩, rfl⟩
    exact ⟨u, rest, hu, rfl, Regex.matches_plus_char.2 ⟨hne, hall, rfl⟩⟩

theorem matches_octetDot :
    Regex.Matches (.seq octet (one DOT)) s cs ↔ ∃ a, IsOctet a ∧ s = a ++ [DOT] ∧ cs = [] := by
  rw [Regex.matches_seq]
  constructor
  · rintro ⟨a, d, cs1, cs2, ha, hd, rfl, rfl⟩
    obtain ⟨hoct, rfl⟩ := matches_octet.1 ha
    obtain ⟨rfl, rfl⟩ := matches_one.1 hd
    exact ⟨a, hoct, rfl, rfl⟩
  · rintro ⟨a, ha, rfl, rfl⟩
    exact ⟨a, [DOT], [], [], matches_octet.2 ⟨ha, rfl⟩, matches_one.2 ⟨rfl, rfl⟩, rfl, rfl⟩

theorem matches_ipv4 : Regex.Matches ipv4 s cs ↔ IsIPv4 s ∧ cs = [] := by
  unfold ipv4
  constructor
  · intro h
    obtain ⟨s1, d, cs1, cs2, h1, hd, rfl, rfl⟩ := Regex.matches_seq.1 h
    obtain ⟨s2, s3, cs3, cs4, ha, h2, rfl, rfl⟩ := Regex.matches_seq.1 h1
    obtain ⟨s4, s5, cs5, cs6, hb, h3, rfl, rfl⟩ := Regex.matches_seq.1 h2
    obtain ⟨s6, s7, cs7, cs8, hc, h4, rfl, rfl⟩ := Regex.matches_seq.1 h3
    obtain ⟨rfl, rfl⟩ := Regex.matches_eps.1 h4
    obtain ⟨a, hoa, rfl, rfl⟩ := matches_octetDot.1 ha
    obtain ⟨b, hob, rfl, rfl⟩ := matches_octetDot.1 hb
    obtain ⟨c, hoc, rfl, rfl⟩ := matches_octetDot.1 hc
    obtain ⟨hod, rfl⟩ := matches_octet.1 hd
    refine ⟨⟨a, b, c, d, hoa, hob, hoc, hod, ?_⟩, rfl⟩
    simp only [List.append_assoc, List.append_nil]
  · rintro ⟨⟨a, b, c, d, ha, hb, hc, hd, rfl⟩, rfl⟩
    have ha := matches_octetDot.2 ⟨a, ha, rfl, rfl⟩
    have hb := matches_octetDot.2 ⟨b, hb, rfl, rfl⟩
    have hc := matches_octetDot.2 ⟨c, hc, rfl, rfl⟩
    have hd := matches_octet.2 ⟨hd, rfl⟩
    have h := Regex.Matches.seq (.seq ha (.seq hb (.seq hc .eps))) hd
    simp only [List.append_assoc, List.append_nil] at h ⊢
    exact h

theorem matches_ipv6 : Regex.Matches ipv6 s cs ↔
    ∃ x, x ≠ [] ∧ (∀ u ∈ x, isHexOrColon u = true) ∧ s = OPEN :: (x ++ [CLOSE]) ∧ cs = [] := by
  unfold ipv6
  rw [Regex.matches_seq]
  constructor
  · rintro ⟨s1, s2, cs1, cs2, h1, h2, rfl, rfl⟩
    obtain ⟨rfl, rfl⟩ := matches_one.1 h1
    obtain ⟨x, s3, cs3, cs4, hx, h3, rfl, rfl⟩ := Regex.matches_seq.1 h2
    obtain ⟨hne, hall, rfl⟩ := Regex.matches_plus_char.1 hx
    obtain ⟨rfl, rfl⟩ := matches_one.1 h3
    exact ⟨x, hne, hall, rfl, rfl⟩
  · rintro ⟨x, hne, hall, rfl, rfl⟩
    exact ⟨[OPEN], x ++ [CLOSE], [], [], matches_one.2 ⟨rfl, rfl⟩,
      .seq (Regex.matches_plus_char.2 ⟨hne, hall, rfl⟩) (matches_one.2 ⟨rfl, rfl⟩), rfl, rfl⟩

theorem matches_address : Regex.Matches (.alt ipv6 (.alt ipv4 name)) s cs ↔
    ∃ a : Address, s = a.text ∧ cs = [] := by
  rw [Regex.matches_alt, Regex.matches_alt, matches_ipv6, matches_ipv4, matches_name]
  constructor
  · rintro (⟨x, hne, hall, rfl, rfl⟩ | ⟨h, rfl⟩ | ⟨h, rfl⟩)
    · exact ⟨.ipv6 x hne hall, rfl, rfl⟩
    · exact ⟨.plain s (.inl h), rfl, rfl⟩
    · exact ⟨.plain s (.inr h), rfl, rfl⟩
  · rintro ⟨⟨x, hne, hall⟩ | ⟨x, h | h⟩, rfl, rfl⟩
    · exact .inl ⟨x, hne, hall, rfl, rfl⟩
    · exact .inr (.inl ⟨h, rfl⟩)
    · exact .inr (.inr ⟨h, rfl⟩)

theorem matches_optionalPart {n : ℕ} {r : Regex UInt16} {P : JsString → Prop}
    (h : ∀ s cs, Regex.Matches r s cs ↔ P s ∧ cs = []) : Regex.Matches (optionalPart n r) s cs ↔
      ∃ o, (∀ t, o = some t → P t) ∧ s = part o ∧ cs = group n o := by
  unfold optionalPart
  rw [Regex.matches_opt, Regex.matches_seq]
  constructor
  · rintro (⟨s1, s2, cs1, cs2, h1, h2, rfl, rfl⟩ | ⟨rfl, rfl⟩)
    · obtain ⟨rfl, rfl⟩ := matches_one.1 h1
      obtain ⟨cs', h3, rfl⟩ := Regex.matches_group.1 h2
      obtain ⟨hP, rfl⟩ := (h _ _).1 h3
      refine ⟨some s2, ?_, rfl, rfl⟩
      rintro t ⟨⟩
      exact hP
    · exact ⟨none, nofun, rfl, rfl⟩
  · rintro ⟨_ | t, hP, rfl, rfl⟩
    · exact .inr ⟨rfl, rfl⟩
    · exact .inl ⟨[COLON], t, [], [(n, t)], matches_one.2 ⟨rfl, rfl⟩,
        .group ((h _ _).2 ⟨hP t rfl, rfl⟩), rfl, rfl⟩

theorem matches_digits (s : JsString) (cs : Regex.Captures UInt16) :
    Regex.Matches (Regex.char isDigit).plus s cs ↔ IsDigits s ∧ cs = [] := by
  rw [Regex.matches_plus_char]
  constructor
  · rintro ⟨hne, hall, rfl⟩
    exact ⟨⟨hne, hall⟩, rfl⟩
  · rintro ⟨h, rfl⟩
    exact ⟨h.ne_nil, h.digits, rfl⟩

theorem matches_HOST_RE : Regex.Matches HOST_RE s cs ↔ ∃ p : HostText, s = p.text ∧ cs = p.captures := by
  unfold HOST_RE
  rw [Regex.matches_seq]
  constructor
  · rintro ⟨s1, s2, cs1, cs2, h1, h2, rfl, rfl⟩
    obtain ⟨cs', ha, rfl⟩ := Regex.matches_group.1 h1
    obtain ⟨a, rfl, rfl⟩ := matches_address.1 ha
    obtain ⟨s3, s4, cs3, cs4, h3, h4, rfl, rfl⟩ := Regex.matches_seq.1 h2
    obtain ⟨t, ht, rfl, rfl⟩ := (matches_optionalPart fun _ _ => matches_name).1 h3
    obtain ⟨d, hd, rfl, rfl⟩ := (matches_optionalPart matches_digits).1 h4
    exact ⟨⟨a, t, d, ht, hd⟩, rfl, rfl⟩
  · rintro ⟨⟨a, t, d, ht, hd⟩, rfl, rfl⟩
    exact ⟨a.text, _, _, _, .group (matches_address.2 ⟨a, rfl, rfl⟩),
      .seq ((matches_optionalPart fun _ _ => matches_name).2 ⟨t, ht, rfl, rfl⟩)
        ((matches_optionalPart matches_digits).2 ⟨d, hd, rfl, rfl⟩), rfl, rfl⟩

end

/-! ### They have one reading -/

section
variable {s x y : JsString}

theorem IsName.head {u : UInt16} (h : IsName s) (hu : s.head? = some u) : isLetter u = true := by
  obtain ⟨v, rest, rfl, hv, -, -⟩ := h
  obtain rfl := Option.some.inj hu
  exact hv

theorem IsName.chars (h : IsName s) : ∀ u ∈ s, isNameChar u = true := by
  obtain ⟨v, rest, rfl, hv, -, hall⟩ := h
  rw [List.forall_mem_cons]
  refine ⟨?_, hall⟩
  rw [isLetter_iff] at hv
  rw [isNameChar_iff]
  omega

theorem IsOctet.chars (h : IsOctet s) : ∀ u ∈ s, isNameChar u = true := by
  intro u hu
  have hd := isDigit_iff.1 (h.digits u hu)
  rw [isNameChar_iff]
  omega

theorem IsIPv4.chars (h : IsIPv4 s) : ∀ u ∈ s, isNameChar u = true := by
  obtain ⟨a, b, c, d, ha, hb, hc, hd, rfl⟩ := h
  have hdot : ∀ u ∈ [DOT], isNameChar u = true := List.forall_mem_singleton.2 rfl
  simp only [List.forall_mem_append]
  exact ⟨⟨ha.chars, hdot⟩, ⟨hb.chars, hdot⟩, ⟨hc.chars, hdot⟩, hd.chars⟩

/-- The characters of an address without brackets. -/
theorem plain_chars (h : IsIPv4 s ∨ IsName s) : ∀ u ∈ s, isNameChar u = true := h.elim IsIPv4.chars IsName.chars

theorem plain_ne_nil (h : IsIPv4 s ∨ IsName s) : s ≠ [] := by
  rcases h with ⟨a, b, c, d, ha, -, -, -, rfl⟩ | ⟨u, rest, rfl, -⟩
  · simp
  · exact List.cons_ne_nil _ _

theorem colon_not_mem (h : ∀ u ∈ s, isNameChar u = true) : COLON ∉ s := fun hm => absurd (h _ hm) (by decide)

theorem ne_open {t r : JsString} (hne : x ≠ []) (h : OPEN ∉ x) : x ++ t ≠ OPEN :: r := by
  obtain ⟨u, x, rfl⟩ := List.exists_cons_of_ne_nil hne
  intro heq
  obtain rfl := (List.cons.inj heq).1
  exact h (.head _)

theorem plain_ne_open {t r : JsString} (h : IsIPv4 x ∨ IsName x) : x ++ t ≠ OPEN :: r :=
  ne_open (plain_ne_nil h) fun hm => absurd (plain_chars h _ hm) (by decide)

theorem close_not_mem (h : ∀ u ∈ s, isHexOrColon u = true) : CLOSE ∉ s := fun hm => absurd (h _ hm) (by decide)

theorem head_part {o o' : Option JsString} {c : UInt16} (h : (part o ++ part o').head? = some c) : c = COLON := by
  cases o with
  | some t => exact (Option.some.inj h).symm
  | none =>
    cases o' with
    | some t => exact (Option.some.inj h).symm
    | none => cases h

theorem part_inj {o o' : Option JsString} (h : part o = part o') : o = o' := by
  rcases o with _ | t <;> rcases o' with _ | t' <;> simp_all [part]

/-- A letter is no digit. -/
theorem name_ne_digits {rest : JsString} (hx : IsName x) (hy : IsDigits y) : x ++ rest ≠ y := by
  rintro rfl
  obtain ⟨u, x, rfl, hu, -, -⟩ := hx
  have hd := isDigit_iff.1 (hy.digits u (by simp))
  rw [isLetter_iff] at hu
  omega

theorem parts_inj {t t' d d' : Option JsString} (ht : ∀ x, t = some x → IsName x) (ht' : ∀ x, t' = some x → IsName x)
    (hd : ∀ x, d = some x → IsDigits x) (hd' : ∀ x, d' = some x → IsDigits x)
    (h : part t ++ part d = part t' ++ part d') : t = t' ∧ d = d' := by
  rcases t with _ | x <;> rcases t' with _ | y
  · exact ⟨rfl, part_inj h⟩
  · rcases d with _ | z
    · cases h
    · have hz : z = y ++ part d' := (List.cons.inj h).2
      exact absurd hz.symm (name_ne_digits (ht' y rfl) (hd z rfl))
  · rcases d' with _ | z
    · cases h
    · have hz : x ++ part d = z := (List.cons.inj h).2
      exact absurd hz (name_ne_digits (ht x rfl) (hd' z rfl))
  · have hx := colon_not_mem (ht x rfl).chars
    have hy := colon_not_mem (ht' y rfl).chars
    have hxy : x ++ part d = y ++ part d' := (List.cons.inj h).2
    obtain ⟨rfl, hp⟩ := Split.append_inj_of_sep hx hy (fun _ => head_part (o := none))
      (fun _ => head_part (o := none)) hxy
    exact ⟨rfl, part_inj hp⟩

theorem HostText.text_inj {p q : HostText} (h : p.text = q.text) : p = q := by
  obtain ⟨a, t, d, ht, hd⟩ := p
  obtain ⟨a', t', d', ht', hd'⟩ := q
  have key : a = a' ∧ part t ++ part d = part t' ++ part d' := by
    unfold text at h
    rcases a with ⟨x, hne, hx⟩ | ⟨x, hx⟩ <;> rcases a' with ⟨y, hne', hy⟩ | ⟨y, hy⟩
    · have hxy : x ++ CLOSE :: (part t ++ part d) = y ++ CLOSE :: (part t' ++ part d') := by
        simpa only [Address.text, List.cons_append, List.append_assoc, List.nil_append, List.cons.injEq, true_and]
          using h
      have hc : ∀ (r : JsString) (c : UInt16), (CLOSE :: r).head? = some c → c = CLOSE := fun _ _ h =>
        (Option.some.inj h).symm
      obtain ⟨rfl, hp⟩ := Split.append_inj_of_sep (close_not_mem hx) (close_not_mem hy) (hc _) (hc _) hxy
      exact ⟨rfl, (List.cons.inj hp).2⟩
    · exact absurd h.symm (plain_ne_open hy)
    · exact absurd h (plain_ne_open hx)
    · obtain ⟨rfl, hp⟩ := Split.append_inj_of_sep (colon_not_mem (plain_chars hx)) (colon_not_mem (plain_chars hy))
        (fun _ => head_part) (fun _ => head_part) h
      exact ⟨rfl, hp⟩
  obtain ⟨rfl, hp⟩ := key
  obtain ⟨rfl, rfl⟩ := parts_inj ht ht' hd hd' hp
  rfl

theorem exec_HOST_RE_text (p : HostText) : HOST_RE.exec p.text = some p.captures := by
  refine Regex.exec_eq_some_of_unique (matches_HOST_RE.2 ⟨p, rfl, rfl⟩) fun cs hcs => ?_
  obtain ⟨q, hq, rfl⟩ := matches_HOST_RE.1 hcs
  rw [HostText.text_inj hq]

theorem exec_HOST_RE_eq_none : HOST_RE.exec s = none ↔ ∀ p : HostText, p.text ≠ s := by
  rw [Regex.exec_eq_none]
  constructor
  · rintro h p rfl
    exact h p.captures (matches_HOST_RE.2 ⟨p, rfl, rfl⟩)
  · intro h cs hcs
    obtain ⟨p, rfl, -⟩ := matches_HOST_RE.1 hcs
    exact h p rfl

end

/-! ### What is read -/

/-- The number that digits denote. -/
def decimal (s : JsString) : ℕ := s.foldl (fun n u => n * 10 + (u.toNat - 48)) 0

namespace HostText

/-- The port that is meant. -/
def portNumber (p : HostText) : ℕ :=
  match p.port with
  | some d => decimal d
  | none => 3000

/-- The port that is read. -/
def portRead (p : HostText) : JsNumber :=
  match p.port with
  | some d => .ofRat (decimal d)
  | none => .ofInt32 3000

variable (p : HostText)

theorem captures_get_one : p.captures.get 1 = some p.addr.text := rfl

theorem captures_get_two : p.captures.get 2 = p.tlsname := by
  unfold captures
  rcases p.tlsname with _ | t <;> rcases p.port with _ | d <;> rfl

theorem captures_get_three : p.captures.get 3 = p.port := by
  unfold captures
  rcases p.tlsname with _ | t <;> rcases p.port with _ | d <;> rfl

end HostText

section
variable {s : JsString}

theorem truthy_of_ne_nil {o : Option JsString} (h : ∀ t, o = some t → t ≠ []) : truthy o = o := by
  rcases o with _ | t
  · rfl
  · exact if_neg (by simpa using h t rfl)

theorem stripBrackets_text (a : Address) : stripBrackets a.text = a.value := by
  unfold stripBrackets
  rcases a with ⟨x, hne, hx⟩ | ⟨x, hx⟩
  · have hlast : (OPEN :: (x ++ [CLOSE])).getLast? = some CLOSE := by
      rw [← List.cons_append]
      exact List.getLast?_concat
    have hlen : (OPEN :: (x ++ [CLOSE])).length - 2 = x.length := by simp
    refine (if_pos ⟨rfl, hlast⟩).trans ?_
    show ((OPEN :: (x ++ [CLOSE])).drop 1).take ((OPEN :: (x ++ [CLOSE])).length - 2) = x
    rw [hlen, List.drop_succ_cons, List.drop_zero, List.take_left]
  · refine if_neg fun h => ?_
    obtain ⟨r, hr⟩ := List.head?_eq_some_iff.1 h.1
    refine plain_ne_open (t := []) hx (r := r) ?_
    rw [List.append_nil]
    exact hr

theorem toNat_charOfNat {u : UInt16} (h : isDigit u = true) : (Char.ofNat u.toNat).toNat = u.toNat := by
  rw [isDigit_iff] at h
  exact JsString.ofNat_toNat_char (.inl (by omega))

theorem foldlM_digits (h : ∀ u ∈ s, isDigit u = true) (n : ℕ) :
    (s.map fun u => Char.ofNat u.toNat).foldlM (fun n c =>
      let d := if c.isDigit then c.toNat - 48
        else if 'a' ≤ c ∧ c ≤ 'z' then c.toNat - 87
        else if 'A' ≤ c ∧ c ≤ 'Z' then c.toNat - 55 else 36
      if d < 10 then some (n * 10 + d) else none) n = some (s.foldl (fun n u => n * 10 + (u.toNat - 48)) n) := by
  induction s generalizing n with
  | nil => rfl
  | cons u s ih =>
    rw [List.forall_mem_cons] at h
    have hval := toNat_charOfNat h.1
    have hu := isDigit_iff.1 h.1
    have hdigit : (Char.ofNat u.toNat).isDigit = true := by
      rw [Char.isDigit_iff_toNat, hval]
      exact hu
    have hlt : u.toNat - 48 < 10 := by omega
    rw [List.map_cons, List.foldlM_cons]
    simp only [hdigit, if_true, hval, hlt]
    exact ih h.2 _

/-- `parseInt` of the port. -/
theorem parseInt10_digits (h : IsDigits s) : parseInt10 s = .ofRat (decimal s) := by
  have hne : (s.map fun u => Char.ofNat u.toNat).isEmpty = false := by simpa using h.ne_nil
  unfold parseInt10 digitsValue
  rw [List.takeWhile_eq_self_iff.2 h.digits, hne]
  simp only [Bool.false_eq_true, if_false]
  rw [foldlM_digits h.digits]
  rfl

theorem parseHostString_text (p : HostText) : parseHostString p.text =
    some { addr := p.addr.value, tlsname := p.tlsname, port := p.portRead } := by
  unfold parseHostString
  rw [exec_HOST_RE_text, Option.map_some, p.captures_get_one, p.captures_get_two, p.captures_get_three,
    Option.getD_some, stripBrackets_text, truthy_of_ne_nil, truthy_of_ne_nil]
  · unfold HostText.portRead
    rcases hd : p.port with _ | d
    · rfl
    · simp only [parseInt10_digits (p.port_ok d hd)]
  · exact fun d hd => (p.port_ok d hd).ne_nil
  · intro t ht
    obtain ⟨u, rest, rfl, -⟩ := p.tlsname_ok t ht
    exact List.cons_ne_nil _ _

theorem parseHostString_eq_none : parseHostString s = none ↔ ∀ p : HostText, p.text ≠ s := by
  unfold parseHostString
  rw [Option.map_eq_none_iff, exec_HOST_RE_eq_none]

end

/-! ### Hosts and how they are written -/

/-- A host. -/
structure Endpoint where
  addr : JsString
  tlsname : Option JsString
  port : UInt16

namespace Endpoint

/-- An IPv6 address is written in brackets. -/
def addrText (e : Endpoint) : JsString := if COLON ∈ e.addr then OPEN :: (e.addr ++ [CLOSE]) else e.addr

def portText (e : Endpoint) : JsString := JsString.ofChars (Nat.toDigits 10 e.port.toNat)

/-- `address[:tlsname][:port]` -/
def render (e : Endpoint) (withPort : Bool) : JsString :=
  e.addrText ++ (part e.tlsname ++ part (if withPort then some e.portText else none))

structure ReadAs (e : Endpoint) (host : Host) : Prop where
  addr : host.addr = e.addr
  tlsname : host.tlsname = e.tlsname
  port : host.port.Is e.port.toNat

/-- The host is read back from the string it is written as, also without a port if that is the default. -/
def RoundTrips (e : Endpoint) : Prop := ∀ withPort : Bool, withPort = true ∨ e.port = 3000 →
  ∃ host, parseHostString (e.render withPort) = some host ∧ e.ReadAs host

/-- Hexadecimal digits and colons, an IPv4 address or a host name; a TLS name is like a host name. -/
structure Renderable (e : Endpoint) : Prop where
  addr : COLON ∈ e.addr ∧ (∀ u ∈ e.addr, isHexOrColon u = true) ∨ IsIPv4 e.addr ∨ IsName e.addr
  tlsname : ∀ t, e.tlsname = some t → IsName t

end Endpoint

section
variable {cs : List Char} {e : Endpoint}

theorem ofChar_digit {c : Char} (h : c.isDigit = true) :
    ∃ u, JsString.ofChar c = [u] ∧ u.toNat = c.toNat ∧ isDigit u = true := by
  have hc : 48 ≤ c.toNat ∧ c.toNat ≤ 57 := Char.isDigit_iff_toNat.1 h
  have hu : (UInt16.ofNat c.toNat).toNat = c.toNat := UInt16.toNat_ofNat_of_lt' (by show c.toNat < 65536; omega)
  refine ⟨UInt16.ofNat c.toNat, if_pos (by omega), hu, ?_⟩
  rw [isDigit_iff, hu]
  exact hc

theorem isDigit_ofChars (h : ∀ c ∈ cs, c.isDigit = true) : ∀ u ∈ JsString.ofChars cs, isDigit u = true := by
  intro u hu
  obtain ⟨c, hc, hu⟩ := List.mem_flatMap.1 hu
  obtain ⟨v, hv, -, hd⟩ := ofChar_digit (h c hc)
  rw [hv, List.mem_singleton] at hu
  exact hu ▸ hd

theorem foldl_ofChars (h : ∀ c ∈ cs, c.isDigit = true) (n : ℕ) :
    (JsString.ofChars cs).foldl (fun n u => n * 10 + (u.toNat - 48)) n = Nat.ofDigitChars 10 cs n := by
  induction cs generalizing n with
  | nil => rfl
  | cons c cs ih =>
    rw [List.forall_mem_cons] at h
    obtain ⟨u, hu, huc, -⟩ := ofChar_digit h.1
    have hcons : JsString.ofChars (c :: cs) = u :: JsString.ofChars cs := by
      rw [JsString.ofChars, List.flatMap_cons, hu]
      rfl
    rw [hcons, List.foldl_cons, ih h.2, Nat.ofDigitChars_cons, huc, Nat.mul_comm n]
    rfl

theorem portText_digits (e : Endpoint) : IsDigits e.portText where
  ne_nil := by
    unfold Endpoint.portText
    obtain ⟨c, cs, hcs⟩ := List.exists_cons_of_ne_nil (Nat.toDigits_ne_nil (n := e.port.toNat) (b := 10))
    have hc : c.isDigit = true :=
      Nat.isDigit_of_mem_toDigits (b := 10) (n := e.port.toNat) (by decide) (by decide) (hcs ▸ .head _)
    obtain ⟨u, hu, -⟩ := ofChar_digit hc
    rw [hcs, JsString.ofChars, List.flatMap_cons, hu]
    exact List.cons_ne_nil _ _
  digits := isDigit_ofChars fun _ => Nat.isDigit_of_mem_toDigits (by decide) (by decide)

theorem decimal_portText (e : Endpoint) : decimal e.portText = e.port.toNat := by
  have hdigits : ∀ c ∈ Nat.toDigits 10 e.port.toNat, c.isDigit = true := fun _ =>
    Nat.isDigit_of_mem_toDigits (by decide) (by decide)
  exact (foldl_ofChars hdigits 0).trans Nat.ofDigitChars_ten_toDigits

theorem HostText.portRead_is (p : HostText) {k : ℕ} (hk : k < 2 ^ 16) : p.portRead.Is k ↔ p.portNumber = k := by
  unfold portRead portNumber
  rcases p.port with _ | d
  · show some ((3000 : ℤ) : ℚ) = some ((k : ℤ) : ℚ) ↔ 3000 = k
    rw [Option.some.injEq]
    exact_mod_cast Iff.rfl
  · exact JsNumber.ofRat_is (by omega)

theorem Endpoint.Renderable.roundTrips (h : e.Renderable) : e.RoundTrips := by
  intro withPort hport
  obtain ⟨a, ha, hv⟩ : ∃ a : Address, a.text = e.addrText ∧ a.value = e.addr := by
    unfold addrText
    rcases h.addr with ⟨hc, hall⟩ | hp
    · exact ⟨.ipv6 e.addr (List.ne_nil_of_mem hc) hall, (if_pos hc).symm, rfl⟩
    · exact ⟨.plain e.addr hp, (if_neg (colon_not_mem (plain_chars hp))).symm, rfl⟩
  have hdigits : ∀ d, (if withPort then some e.portText else none) = some d → IsDigits d := by
    intro d hd
    split_ifs at hd
    obtain rfl := Option.some.inj hd
    exact portText_digits e
  have hparse := parseHostString_text ⟨a, e.tlsname, _, h.tlsname, hdigits⟩
  unfold HostText.text at hparse
  rw [ha] at hparse
  refine ⟨_, hparse, hv, rfl, (HostText.portRead_is _ e.port.toNat_lt).2 ?_⟩
  cases withPort with
  | true => exact decimal_portText e
  | false =>
    rcases hport with h | h
    · cases h
    · rw [h]
      rfl

theorem Endpoint.RoundTrips.renderable (h : e.RoundTrips) : e.Renderable := by
  obtain ⟨host, hparse, hread⟩ := h true (.inl rfl)
  obtain ⟨p, hp⟩ : ∃ p : HostText, p.text = e.render true := by
    by_contra hnone
    rw [parseHostString_eq_none.2 fun p hp => hnone ⟨p, hp⟩] at hparse
    cases hparse
  rw [← hp, parseHostString_text] at hparse
  obtain rfl := Option.some.inj hparse
  have haddr : p.addr.value = e.addr := hread.addr
  have htls : p.tlsname = e.tlsname := hread.tlsname
  refine ⟨?_, htls ▸ p.tlsname_ok⟩
  rcases ha : p.addr with ⟨x, hne, hx⟩ | ⟨x, hx⟩
  · rw [ha] at haddr
    obtain rfl : x = e.addr := haddr
    refine .inl ⟨?_, hx⟩
    -- without a colon it is written without brackets, but read from brackets
    by_contra hc
    unfold HostText.text render addrText at hp
    rw [ha, if_neg hc] at hp
    exact ne_open hne (fun hm => absurd (hx _ hm) (by decide)) hp.symm
  · rw [ha] at haddr
    obtain rfl : x = e.addr := haddr
    exact .inr hx

theorem roundTrips_iff (e : Endpoint) : e.RoundTrips ↔ e.Renderable :=
  ⟨Endpoint.RoundTrips.renderable, Endpoint.Renderable.roundTrips⟩

/-- A host that was read from a string is read again, unless it was put in brackets without being an IPv6 address. -/
theorem roundTrips_text_iff {p : HostText} (ha : p.addr.value = e.addr) (ht : p.tlsname = e.tlsname) :
    e.RoundTrips ↔ COLON ∈ e.addr ∨ IsIPv4 e.addr ∨ IsName e.addr := by
  rw [roundTrips_iff]
  constructor
  · exact fun h => h.addr.imp_left And.left
  · refine fun h => ⟨?_, ht ▸ p.tlsname_ok⟩
    rw [← ha] at h ⊢
    revert h
    rcases p.addr with ⟨x, hne, hx⟩ | ⟨x, hx⟩
    · exact Or.imp_left fun hc => ⟨hc, hx⟩
    · exact fun _ => .inr hx

end

end AerospikeNode.HostString

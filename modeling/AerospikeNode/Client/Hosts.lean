import AerospikeNode.Client.HostString
import AerospikeNode.Native.Buffers

/-!
# Seed hosts

The ways a host takes to the C client: as a string or object to `Client#info` (`host_from_jsobject` of
`src/main/util/conversions.cc`), as an object of the configuration (`src/main/config.cc`), and to
`Client#addSeedHost` (`src/main/client.cc`). All of them cast the port to 16 bits.

`hosts_right_iff` says for which hosts the C client gets what was given, and which are read back from the string
they are written as.
-/

namespace AerospikeNode

open HostString

/-- A host of the C client, its texts with their NULs. -/
structure NativeHost where
  addr : Bytes
  tlsname : Option Bytes
  port : UInt16

/-- `(uint16_t)Nan::To<uint32_t>(..).FromJust()` -/
def narrowPort (n : JsNumber) : UInt16 := n.toUint32.toUInt16

/-- The buffer of a `Nan::Utf8String`. -/
def utf8String (s : JsString) : Bytes := s.utf8 ++ [0]

/-! ### An info command -/

/-- The object that `parseHostString` returns. -/
def HostString.Host.toJs (host : Host) : JsValue :=
  .plain ((JsString.lit "addr", .str host.addr) ::
    ((host.tlsname.map fun t => (JsString.lit "tlsname", JsValue.str t)).toList ++
      [(JsString.lit "port", .num host.port)]))

/-- `host_from_jsobject` -/
def hostFromJsobject (obj : JsValue) : Res NativeHost :=
  match obj.field "addr", obj.field "port" with
  | .str addr, .num port =>
    .ok { addr := (hostAddr addr).buffers.flatMap Buffer.written, tlsname := none, port := narrowPort port }
  | _, _ => .error .paramErr

/-- `Client.prototype.info` with a host string; `none` where it throws. -/
def infoHost (hostString : JsString) : Option (Res NativeHost) :=
  (parseHostString hostString).map fun host => hostFromJsobject host.toJs

/-! ### The configuration -/

def DEFAULT_PORT : UInt32 := 3000

/-- `Config#port` -/
def configPort : JsValue → JsNumber
  | .num n => n
  | _ => .ofInt32 3000

/-- `default_port` -/
def defaultPort (port : JsValue) : Res UInt32 := port.optionalUint32Property.map fun p => p.getD DEFAULT_PORT

def hostPort (default : UInt32) : JsValue → Res UInt16
  | .num n => .ok (narrowPort n)
  | .undefined => .ok default.toUInt16
  | _ => .error .paramErr

/-- The name that `as_config_tls_add_host` is called with. -/
def hostTlsname : JsValue → Option Bytes
  | .str t => some (utf8String t)
  | _ => none

/-- An element of `hosts`. -/
def hostFromConfig (default : UInt32) (host : JsValue) : Res NativeHost := do
  let host ← host.asObject
  let port ← hostPort default (host.field "port")
  match host.field "addr" with
  | .str addr => return { addr := utf8String addr, tlsname := hostTlsname (host.field "tlsname"), port }
  | _ => .error .paramErr

def hostsFromArray (default : UInt32) : List JsValue → Res (List NativeHost)
  | [] => .ok []
  | host :: hosts => do
    let h ← hostFromConfig default host
    let hs ← hostsFromArray default hosts
    return h :: hs

/-- The hosts of a configuration with this port. -/
def configHosts (port : JsValue) (hosts : List JsValue) : Res (List NativeHost) := do
  let default ← defaultPort (.num (configPort port))
  hostsFromArray default hosts

/-! ### `addSeedHost` -/

/-- `port || this.config.port` -/
def seedPort (configured port : JsValue) : JsValue := if port.truthy then port else .num (configPort configured)

/-- `Client.prototype.addSeedHost`, with the type checks of `AerospikeClient::AddSeedHost`. -/
def addSeedHost (configured hostname port : JsValue) : Res NativeHost :=
  match hostname, seedPort configured port with
  | .str hostname, .num port => .ok { addr := utf8String hostname, tlsname := none, port := narrowPort port }
  | _, _ => .error .paramErr

/-! ### What they are for -/

/-- The bytes are a C string with the text. -/
structure Spells (bs : Bytes) (s : JsString) : Prop where
  ends : 0 ∈ bs
  text : Utf8Of (JsString.cstr bs) s

structure NativeHost.Denotes (h : NativeHost) (e : Endpoint) : Prop where
  addr : Spells h.addr e.addr
  tlsname : Option.Rel Spells h.tlsname e.tlsname
  port : h.port = e.port

/-- The number that is given as port, or the one to use if none is given. -/
def portGiven (default : JsNumber) : JsValue → JsNumber
  | .num n => n
  | _ => default

/-- The name that is given; `undefined` and `null` are none. -/
def TlsnameGiven : JsValue → Option JsString → Prop
  | .str t, o => o = some t
  | v, o => v.isNullish = true ∧ o = none

/-- A host string stands for the host that its parts make up. -/
structure StringGives (s : JsString) (e : Endpoint) : Prop where
  gives : ∃ p : HostText, p.text = s ∧ e.addr = p.addr.value ∧ e.tlsname = p.tlsname ∧ e.port.toNat = p.portNumber

structure ObjectGives (port host : JsValue) (e : Endpoint) : Prop where
  addr : host.field "addr" = .str e.addr
  tlsname : TlsnameGiven (host.field "tlsname") e.tlsname
  port : (portGiven (configPort port) (host.field "port")).Is e.port.toNat

structure SeedGives (configured hostname port : JsValue) (e : Endpoint) : Prop where
  addr : hostname = .str e.addr
  tlsname : e.tlsname = none
  port : (portGiven (configPort configured) port).Is e.port.toNat

inductive HostInput where
  | string (hostString : JsString)
  | config (port : JsValue) (hosts : List JsValue)
  | seed (configured hostname port : JsValue)

/-- If it is accepted, the C client gets the host that is given. -/
def HostInput.Right : HostInput → Prop
  | string s => ∀ h, infoHost s = some (.ok h) → ∃ e, StringGives s e ∧ h.Denotes e
  | config port hosts => ∀ hs, configHosts port hosts = .ok hs →
      List.Forall₂ (fun host h => ∃ e, ObjectGives port host e ∧ h.Denotes e) hosts hs
  | seed configured hostname port => ∀ h, addSeedHost configured hostname port = .ok h →
      ∃ e, SeedGives configured hostname port e ∧ h.Denotes e

/-! ### The hosts that they pass on -/

/-- An integer from 0 to 65535. -/
def PortFits (n : JsNumber) : Prop := ∃ k : ℕ, k < 2 ^ 16 ∧ n.Is k

/-- The objects that are accepted. -/
structure ObjectTyped (host : JsValue) : Prop where
  object : host.isObject = true
  addr : ∃ s, host.field "addr" = .str s
  port : (∃ n, host.field "port" = .num n) ∨ host.field "port" = .undefined

structure ObjectFits (port host : JsValue) : Prop where
  addr : ∀ s, host.field "addr" = .str s → s.Clean
  tlsname : (host.field "tlsname").isNullish = true ∨ ∃ t, host.field "tlsname" = .str t ∧ t.Clean
  port : PortFits (portGiven (configPort port) (host.field "port"))

/-- The arguments that are accepted. -/
def SeedTyped (hostname port : JsValue) : Prop :=
  (∃ s, hostname = .str s) ∧ (port.truthy = true → ∃ n, port = .num n)

structure SeedFits (configured hostname port : JsValue) : Prop where
  addr : ∀ s, hostname = .str s → s.Clean
  zero : ∀ n : JsNumber, port = .num n → n.Is 0 → narrowPort (configPort configured) = 0
  port : PortFits (portGiven (configPort configured) port)

/-- A host string fits if it has an address of less than 50 characters, no TLS name, and a port up to 65535. -/
structure StringFits (p : HostText) : Prop where
  addr : p.addr.value.length < HOST_ADDRESS_SIZE
  tlsname : p.tlsname = none
  port : p.portNumber < 2 ^ 16

def HostInput.Fits : HostInput → Prop
  | string s => ∀ p : HostText, p.text = s → StringFits p
  | config port hosts => (∃ host ∈ hosts, ¬ObjectTyped host) ∨ ∀ host ∈ hosts, ObjectFits port host
  | seed configured hostname port => ¬SeedTyped hostname port ∨ SeedFits configured hostname port

/-! ### Ports and texts -/

section
variable {n : JsNumber} {p : UInt16} {s : JsString}

theorem narrowPort_eq (h : n.Is p.toNat) : narrowPort n = p := by
  have hlt := p.toNat_lt
  apply UInt16.toNat.inj
  rw [narrowPort, UInt32.toNat_toUInt16, h.toNat_toUint32 (hlt.trans (by decide)), Nat.mod_eq_of_lt hlt]

/-- The cast keeps the ports from 0 to 65535, and no others. -/
theorem is_narrowPort : n.Is (narrowPort n).toNat ↔ PortFits n := by
  constructor
  · exact fun h => ⟨_, (narrowPort n).toNat_lt, h⟩
  · rintro ⟨k, hk, h⟩
    have hp : n.Is (UInt16.ofNat k).toNat := by rwa [UInt16.toNat_ofNat_of_lt' hk]
    rw [narrowPort_eq hp]
    exact hp

theorem cstr_append_zero (bs : Bytes) : JsString.cstr (bs ++ [0]) = JsString.cstr bs := by
  induction bs with
  | nil => rfl
  | cons b bs ih =>
    unfold JsString.cstr at ih ⊢
    rw [List.cons_append, List.takeWhile_cons, List.takeWhile_cons, ih]

theorem spells_utf8String : Spells (utf8String s) s ↔ s.Clean := by
  unfold utf8String
  constructor
  · rintro ⟨-, hw, h⟩
    rw [cstr_append_zero] at h
    exact ⟨hw, JsString.cstr_eq_self.1 h⟩
  · rintro ⟨hw, h0⟩
    refine ⟨List.mem_append_right _ (.head _), hw, ?_⟩
    rw [cstr_append_zero]
    exact JsString.cstr_eq_self.2 h0

/-- The TLS name is passed on where it is a string that a `char *` holds, or none is given. -/
theorem exists_tlsname {v : JsValue} : (∃ o, TlsnameGiven v o ∧ Option.Rel Spells (hostTlsname v) o) ↔
    v.isNullish = true ∨ ∃ t, v = .str t ∧ t.Clean := by
  constructor
  · rintro ⟨o, hg, hr⟩
    cases v
    case str t =>
      obtain rfl : o = some t := hg
      exact .inr ⟨t, rfl, spells_utf8String.1 (Option.rel_some_some.1 hr)⟩
    all_goals exact .inl hg.1
  · rintro (h | ⟨t, rfl, ht⟩)
    · refine ⟨none, ?_, ?_⟩
      · cases v with
        | undefined | null => exact ⟨h, rfl⟩
        | _ => cases h
      · cases v with
        | undefined | null => exact .none
        | _ => cases h
    · exact ⟨some t, rfl, .some (spells_utf8String.2 ht)⟩

/-- ASCII characters other than NUL are one byte each. -/
theorem ascii_clean (h : ∀ u ∈ s, 0 < u.toNat ∧ u.toNat < 128) : s.Clean ∧ s.utf8.length = s.length := by
  induction s with
  | nil => exact ⟨⟨rfl, List.not_mem_nil⟩, rfl⟩
  | cons u s ih =>
    rw [List.forall_mem_cons] at h
    obtain ⟨⟨hw, h0⟩, hlen⟩ := ih h.2
    have hsurr : (JsString.isHigh u || JsString.isLow u) = false := by
      simp only [JsString.isHigh, JsString.isLow, Bool.or_eq_false_iff, Bool.and_eq_false_iff,
        decide_eq_false_iff_not]
      omega
    have hchar : (JsString.unitChar u).toNat = u.toNat := by
      unfold JsString.unitChar
      rw [hsurr]
      exact JsString.ofNat_toNat_char (.inl (by omega))
    have hutf8 : JsString.utf8 (u :: s) = String.utf8EncodeChar (JsString.unitChar u) ++ JsString.utf8 s := by
      unfold JsString.utf8
      rw [JsString.codePoints_cons_unit hsurr, List.flatMap_cons]
    have hbyte : (String.utf8EncodeChar (JsString.unitChar u)).length = 1 := by
      have hle : (JsString.unitChar u).toNat ≤ 127 := by omega
      rw [String.length_utf8EncodeChar, Char.utf8Size_eq_one_iff]
      exact hle
    refine ⟨⟨?_, ?_⟩, ?_⟩
    · rwa [JsString.wellFormed_cons_unit hsurr]
    · rw [hutf8, List.mem_append]
      rintro (hz | hz)
      · have hnul := congrArg Char.toNat (JsString.zero_mem_utf8EncodeChar hz)
        rw [hchar] at hnul
        exact absurd hnul h.1.1.ne'
      · exact h0 hz
    · rw [hutf8, List.length_append, hbyte, hlen, List.length_cons, Nat.add_comm]

theorem spells_hostAddr (h : ∀ u ∈ s, 0 < u.toNat ∧ u.toNat < 128) :
    Spells ((hostAddr s).buffers.flatMap Buffer.written) s ↔ s.length < HOST_ADDRESS_SIZE := by
  obtain ⟨⟨hw, h0⟩, hlen⟩ := ascii_clean h
  have hbuffer : (hostAddr s).buffers.flatMap Buffer.written = strncpy (nativeStr s)
      (if s.length + 1 < HOST_ADDRESS_SIZE then s.length + 1 else HOST_ADDRESS_SIZE) := List.append_nil _
  have hholds : (Buffer.mk HOST_ADDRESS_SIZE (strncpy (nativeStr s)
      (if s.length + 1 < HOST_ADDRESS_SIZE then s.length + 1 else HOST_ADDRESS_SIZE))).Holds s ↔ _ := holds_strncpy
  rw [hbuffer]
  constructor
  · rintro ⟨hz, -, ht⟩
    have hlt := (hholds.1 ⟨hz, ht⟩).2
    split_ifs at hlt <;> omega
  · intro hlt
    obtain ⟨hz, ht⟩ := hholds.2 ⟨h0, by split_ifs <;> omega⟩
    exact ⟨hz, hw, ht⟩

theorem HostString.Address.ascii (a : Address) : ∀ u ∈ a.value, 0 < u.toNat ∧ u.toNat < 128 := by
  intro u hu
  rcases a with ⟨x, hne, hx⟩ | ⟨x, hx⟩
  · have h := isHexOrColon_iff.1 (hx u hu)
    omega
  · have h := isNameChar_iff.1 (plain_chars hx u hu)
    omega

end

/-! ### Host strings -/

section
variable {s : JsString}

theorem Host.toJs_addr (host : Host) : host.toJs.field "addr" = .str host.addr := by
  simp [Host.toJs, JsValue.field, JsValue.get]

theorem Host.toJs_port (host : Host) : host.toJs.field "port" = .num host.port := by
  rcases htls : host.tlsname with _ | t
  · simp [Host.toJs, htls, JsValue.field, JsValue.get, Props.get_cons_ne]
  · simp [Host.toJs, htls, JsValue.field, JsValue.get, Props.get_cons_ne]

theorem infoHost_text (p : HostText) : infoHost p.text = some (.ok
    { addr := (hostAddr p.addr.value).buffers.flatMap Buffer.written, tlsname := none
      port := narrowPort p.portRead }) := by
  unfold infoHost hostFromJsobject
  rw [parseHostString_text, Option.map_some, Host.toJs_addr, Host.toJs_port]

theorem right_string_iff : (HostInput.string s).Right ↔ (HostInput.string s).Fits := by
  constructor
  · rintro h p rfl
    obtain ⟨e, ⟨q, hq, haddr, htls, hport⟩, hd⟩ := h _ (infoHost_text p)
    obtain rfl := HostText.text_inj hq
    refine ⟨?_, ?_, ?_⟩
    · rw [← spells_hostAddr q.addr.ascii]
      have hspells := hd.addr
      rwa [haddr] at hspells
    · rw [← htls]
      have hrel := hd.tlsname
      generalize e.tlsname = o at hrel
      cases hrel
      rfl
    · rw [← hport]
      exact e.port.toNat_lt
  · intro h nh hnh
    obtain ⟨p, rfl⟩ : ∃ p : HostText, p.text = s := by
      by_contra hnone
      unfold infoHost at hnh
      rw [parseHostString_eq_none.2 fun p hp => hnone ⟨p, hp⟩] at hnh
      cases hnh
    obtain ⟨haddr, htls, hport⟩ := h p rfl
    rw [infoHost_text] at hnh
    obtain rfl := Except.ok.inj (Option.some.inj hnh)
    have hofNat : (UInt16.ofNat p.portNumber).toNat = p.portNumber := UInt16.toNat_ofNat_of_lt' hport
    have his : p.portRead.Is (UInt16.ofNat p.portNumber).toNat :=
      (p.portRead_is (UInt16.toNat_lt _)).2 hofNat.symm
    exact ⟨⟨p.addr.value, none, UInt16.ofNat p.portNumber⟩, ⟨p, rfl, rfl, htls.symm, hofNat⟩,
      (spells_hostAddr p.addr.ascii).2 haddr, .none, narrowPort_eq his⟩

end

/-! ### The configuration -/

section
variable {port host : JsValue} {hosts : List JsValue} {h : NativeHost} {hs : List NativeHost}

theorem hostPort_ok {v : JsValue} {p : UInt16} {n : JsNumber} (hp : hostPort n.toUint32 v = .ok p) :
    p = narrowPort (portGiven n v) := by
  cases v with
  | undefined | num n' => exact (Except.ok.inj hp).symm
  | _ => cases hp

theorem hostPort_typed {d : UInt32} {v : JsValue} :
    (∃ p, hostPort d v = .ok p) ↔ (∃ n, v = .num n) ∨ v = .undefined := by
  constructor
  · rintro ⟨p, hp⟩
    cases v
    case num n => exact .inl ⟨n, rfl⟩
    case undefined => exact .inr rfl
    all_goals cases hp
  · rintro (⟨n, rfl⟩ | rfl)
    · exact ⟨_, rfl⟩
    · exact ⟨_, rfl⟩

theorem hostFromConfig_eq_ok {d : UInt32} : hostFromConfig d host = .ok h ↔ host.isObject = true ∧
    ∃ p s, hostPort d (host.field "port") = .ok p ∧ host.field "addr" = .str s ∧
      h = { addr := utf8String s, tlsname := hostTlsname (host.field "tlsname"), port := p } := by
  unfold hostFromConfig JsValue.asObject
  constructor
  · intro hh
    obtain ⟨host', hobj, hh⟩ := Except.bind_eq_ok.1 hh
    obtain ⟨p, hp, hh⟩ := Except.bind_eq_ok.1 hh
    split_ifs at hobj with ho
    obtain rfl := Except.ok.inj hobj
    rcases ha : host.field "addr" <;> rw [ha] at hh
    case str s => exact ⟨ho, p, s, hp, rfl, (Except.ok.inj hh).symm⟩
    all_goals cases hh
  · rintro ⟨ho, p, s, hp, hs, rfl⟩
    refine Except.bind_eq_ok.2 ⟨host, if_pos ho, Except.bind_eq_ok.2 ⟨p, hp, ?_⟩⟩
    rw [hs]
    rfl

theorem objectTyped_iff (d : UInt32) : ObjectTyped host ↔ ∃ h, hostFromConfig d host = .ok h := by
  simp only [hostFromConfig_eq_ok]
  constructor
  · rintro ⟨ho, ⟨s, hs⟩, hport⟩
    obtain ⟨p, hp⟩ := hostPort_typed.2 hport
    exact ⟨_, ho, p, s, hp, hs, rfl⟩
  · rintro ⟨h, ho, p, s, hp, hs, -⟩
    exact ⟨ho, ⟨s, hs⟩, hostPort_typed.1 ⟨p, hp⟩⟩

/-- What becomes of an object that is accepted. -/
theorem object_denotes_iff (hh : hostFromConfig (configPort port).toUint32 host = .ok h) :
    (∃ e, ObjectGives port host e ∧ h.Denotes e) ↔ ObjectFits port host := by
  obtain ⟨-, p, s, hp, hs, rfl⟩ := hostFromConfig_eq_ok.1 hh
  obtain rfl := hostPort_ok hp
  constructor
  · rintro ⟨e, hg, hd⟩
    have haddr : s = e.addr := JsValue.str.inj (hs.symm.trans hg.addr)
    refine ⟨fun t ht => ?_, exists_tlsname.1 ⟨e.tlsname, hg.tlsname, hd.tlsname⟩, ⟨_, e.port.toNat_lt, hg.port⟩⟩
    obtain rfl : s = t := JsValue.str.inj (hs.symm.trans ht)
    rw [← spells_utf8String]
    have hspells := hd.addr
    rwa [← haddr] at hspells
  · rintro ⟨haddr, htls, hport⟩
    obtain ⟨o, hg, hrel⟩ := exists_tlsname.2 htls
    exact ⟨⟨s, o, narrowPort (portGiven (configPort port) (host.field "port"))⟩, ⟨hs, hg, is_narrowPort.2 hport⟩,
      spells_utf8String.2 (haddr s hs), hrel, rfl⟩

theorem exists_forall₂ {α β : Type} {R : α → β → Prop} {xs : List α} (h : ∀ x ∈ xs, ∃ y, R x y) :
    ∃ ys, List.Forall₂ R xs ys := by
  induction xs with
  | nil => exact ⟨[], .nil⟩
  | cons x xs ih =>
    rw [List.forall_mem_cons] at h
    obtain ⟨y, hy⟩ := h.1
    obtain ⟨ys, hys⟩ := ih h.2
    exact ⟨y :: ys, .cons hy hys⟩

theorem hostsFromArray_ok {d : UInt32} :
    hostsFromArray d hosts = .ok hs ↔ List.Forall₂ (fun host h => hostFromConfig d host = .ok h) hosts hs := by
  induction hosts generalizing hs with
  | nil =>
    rw [List.forall₂_nil_left_iff]
    exact ⟨fun h => (Except.ok.inj h).symm, fun h => congrArg Except.ok h.symm⟩
  | cons host hosts ih =>
    rw [List.forall₂_cons_left_iff]
    unfold hostsFromArray
    constructor
    · intro h
      obtain ⟨nh, hnh, h⟩ := Except.bind_eq_ok.1 h
      obtain ⟨nhs, hnhs, h⟩ := Except.bind_eq_ok.1 h
      exact ⟨nh, nhs, hnh, ih.1 hnhs, (Except.ok.inj h).symm⟩
    · rintro ⟨nh, nhs, hnh, hnhs, rfl⟩
      exact Except.bind_eq_ok.2 ⟨nh, hnh, Except.bind_eq_ok.2 ⟨nhs, ih.2 hnhs, rfl⟩⟩

theorem configHosts_ok : configHosts port hosts = .ok hs ↔
    List.Forall₂ (fun host h => hostFromConfig (configPort port).toUint32 host = .ok h) hosts hs :=
  hostsFromArray_ok

theorem right_config_iff : (HostInput.config port hosts).Right ↔ (HostInput.config port hosts).Fits := by
  show (∀ hs, configHosts port hosts = .ok hs → _) ↔ _ ∨ _
  simp only [configHosts_ok]
  constructor
  · intro h
    by_cases htyped : ∀ host ∈ hosts, ObjectTyped host
    · right
      obtain ⟨hs, hok⟩ := exists_forall₂ fun host hmem =>
        (objectTyped_iff (configPort port).toUint32).1 (htyped host hmem)
      have hboth := List.Forall₂.mp (fun _ _ hd hh => And.intro ((object_denotes_iff hh).1 hd) hh) (h hs hok) hok
      exact ((List.forall₂_and_left _ _).1 hboth).1
    · left
      simpa only [not_forall, exists_prop] using htyped
  · rintro (⟨host, hmem, hnot⟩ | hfits) hs hok
    · have htyped := hok.imp fun _ h hh => And.intro ((objectTyped_iff _).2 ⟨h, hh⟩) hh
      exact absurd (((List.forall₂_and_left _ _).1 htyped).1 host hmem) hnot
    · exact ((List.forall₂_and_left _ _).2 ⟨hfits, hok⟩).imp fun _ _ hh => (object_denotes_iff hh.2).2 hh.1

end

/-! ### `addSeedHost` -/

section
variable {configured hostname port : JsValue} {h : NativeHost} {n : JsNumber}

/-- A zero is falsy, and the only number that is. -/
theorem JsNumber.Is.truthy_iff {i : ℤ} (h : n.Is i) : n.truthy = true ↔ i ≠ 0 := by
  cases n with
  | nan => cases h
  | inf neg => cases h
  | negZero =>
    have h0 : (0 : ℚ) = i := Option.some.inj h
    have hi : i = 0 := by exact_mod_cast h0.symm
    simp [JsNumber.truthy, hi]
  | fin q hq =>
    obtain rfl : q = i := Option.some.inj h
    simp [JsNumber.truthy]

theorem addSeedHost_eq_ok : addSeedHost configured hostname port = .ok h ↔
    ∃ s n, hostname = .str s ∧ seedPort configured port = .num n ∧
      h = { addr := utf8String s, tlsname := none, port := narrowPort n } := by
  unfold addSeedHost
  constructor
  · intro hok
    split at hok
    · exact ⟨_, _, rfl, ‹_›, (Except.ok.inj hok).symm⟩
    · cases hok
  · rintro ⟨s, n, rfl, hn, rfl⟩
    rw [hn]

theorem seedTyped_iff (configured : JsValue) :
    SeedTyped hostname port ↔ ∃ h, addSeedHost configured hostname port = .ok h := by
  simp only [addSeedHost_eq_ok]
  unfold SeedTyped seedPort
  constructor
  · rintro ⟨⟨s, rfl⟩, hport⟩
    by_cases ht : port.truthy = true
    · obtain ⟨n, rfl⟩ := hport ht
      exact ⟨_, s, n, rfl, if_pos ht, rfl⟩
    · exact ⟨_, s, configPort configured, rfl, if_neg ht, rfl⟩
  · rintro ⟨h, s, n, rfl, hn, -⟩
    refine ⟨⟨s, rfl⟩, fun ht => ⟨n, ?_⟩⟩
    rwa [if_pos ht] at hn

/-- What becomes of a port that is accepted. -/
theorem seedPort_denotes_iff (hn : seedPort configured port = .num n) :
    (portGiven (configPort configured) port).Is (narrowPort n).toNat ↔
      PortFits (portGiven (configPort configured) port) ∧
        ∀ k : JsNumber, port = .num k → k.Is 0 → narrowPort (configPort configured) = 0 := by
  unfold seedPort at hn
  by_cases ht : port.truthy = true
  · rw [if_pos ht] at hn
    subst hn
    show n.Is (narrowPort n).toNat ↔ PortFits n ∧ _
    rw [is_narrowPort, iff_self_and]
    rintro - k ⟨⟩ h0
    exact absurd rfl (h0.truthy_iff.1 ht)
  · rw [if_neg ht] at hn
    obtain rfl := JsValue.num.inj hn
    cases port
    case num k =>
      have hzero : ∀ j : ℤ, k.Is j → j = 0 := fun j hj => by_contra fun hne => ht (hj.truthy_iff.2 hne)
      show k.Is _ ↔ PortFits k ∧ _
      constructor
      · intro h
        have h0 : narrowPort (configPort configured) = 0 := UInt16.toNat.inj (Int.natCast_eq_zero.1 (hzero _ h))
        exact ⟨⟨_, UInt16.toNat_lt _, h⟩, fun _ _ _ => h0⟩
      · rintro ⟨⟨j, -, hj⟩, h0⟩
        obtain rfl : j = 0 := Int.natCast_eq_zero.1 (hzero j hj)
        rw [h0 k rfl hj]
        exact hj
    all_goals
      show (configPort configured).Is _ ↔ PortFits (configPort configured) ∧ _
      rw [is_narrowPort, iff_self_and]
      rintro - k ⟨⟩

theorem right_seed_iff : (HostInput.seed configured hostname port).Right ↔
    (HostInput.seed configured hostname port).Fits := by
  show (∀ h, addSeedHost configured hostname port = .ok h → _) ↔ ¬SeedTyped hostname port ∨ _
  rw [seedTyped_iff configured]
  constructor
  · intro h
    by_cases hok : ∃ h, addSeedHost configured hostname port = .ok h
    swap
    · exact .inl hok
    obtain ⟨nh, hok⟩ := hok
    obtain ⟨e, hg, hd⟩ := h nh hok
    obtain ⟨s, n, hs, hn, rfl⟩ := addSeedHost_eq_ok.1 hok
    have haddr : s = e.addr := JsValue.str.inj (hs.symm.trans hg.addr)
    have hport := hg.port
    rw [← hd.port, seedPort_denotes_iff hn] at hport
    refine .inr ⟨fun t ht => ?_, hport.2, hport.1⟩
    obtain rfl : s = t := JsValue.str.inj (hs.symm.trans ht)
    have hspells := hd.addr
    rw [← haddr] at hspells
    exact spells_utf8String.1 hspells
  · rintro (hnot | ⟨haddr, hzero, hport⟩) nh hok
    · exact absurd ⟨nh, hok⟩ hnot
    · obtain ⟨s, n, hs, hn, rfl⟩ := addSeedHost_eq_ok.1 hok
      exact ⟨⟨s, none, narrowPort n⟩, ⟨hs, rfl, (seedPort_denotes_iff hn).2 ⟨hport, hzero⟩⟩,
        spells_utf8String.2 (haddr s hs), .none, rfl⟩

end

theorem HostInput.right_iff (i : HostInput) : i.Right ↔ i.Fits := by
  rcases i with s | ⟨port, hosts⟩ | ⟨configured, hostname, port⟩
  · exact right_string_iff
  · exact right_config_iff
  · exact right_seed_iff

/-- Which hosts reach the C client as they are given, and which are read back from the string they are written
as. -/
theorem hosts_right_iff (i : HostInput) (e : Endpoint) :
    (i.Right ↔ i.Fits) ∧ (e.RoundTrips ↔ e.Renderable) :=
  ⟨i.right_iff, roundTrips_iff e⟩

theorem isOctet_single {u : UInt16} (h : isDigit u = true) : IsOctet [u] where
  ne_nil := List.cons_ne_nil _ _
  length_le := Nat.le_add_left 1 2
  digits := List.forall_mem_singleton.2 h

/-- `1.2.3.4:70000` -/
def largePort : HostText where
  addr := .plain (JsString.lit "1.2.3.4") (.inl ⟨[49], [50], [51], [52], isOctet_single rfl, isOctet_single rfl,
    isOctet_single rfl, isOctet_single rfl, rfl⟩)
  tlsname := none
  port := some (JsString.lit "70000")
  tlsname_ok := nofun
  port_ok := by
    rintro p ⟨⟩
    exact ⟨List.cons_ne_nil _ _, List.all_eq_true.1 rfl⟩

/-- A port of more than 16 bits is accepted, and cut to 4464. -/
theorem large_port_cut : ¬(HostInput.string (JsString.lit "1.2.3.4:70000")).Right := by
  rw [HostInput.right_iff]
  intro h
  have hport := (h largePort rfl).port
  exact absurd hport (by decide)

end AerospikeNode

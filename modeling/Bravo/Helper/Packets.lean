import Bravo.Basic.PyJson
import Bravo.Helper.Protocol

/-! # The packets of the privileged helper

`_validate_json_domain`, `_bounded_canonical_json_bytes`, `_strict_bounded_json_bytes` and `recv_packet` over Python's
strings, with `json.loads` as it is documented: a value, a `ValueError`, the error of a hook or a `RecursionError`.
The last is not caught, and strict encoding of half of a surrogate pair raises outside the classes of the protocol;
on every other input a packet is refused with a `ProtocolError` or is the canonical text of what is returned.
-/

namespace Bravo.Packet

open PyJson Helper List

/-- What `json.loads` raises, with the hooks of `_strict_bounded_json_bytes`. -/
inductive LoadError
  | protocolError (message : String)
  | valueError (message : String)
  | recursionError
deriving DecidableEq, Repr

structure JsonModule (F : Type) where
  /-- `repr` of a float -/
  floatRepr : F → List Char
  /-- `json.loads` -/
  loads : PyStr → Except LoadError (PyJson F)

def u64Max : Int := 2 ^ 64 - 1

def maxJsonDepth : Nat := 16

def maxStringCharacters : Nat := 16 * 1024

def maxContainerItems : Nat := 2048

section Functions

variable {F : Type} (json : JsonModule F)

def atDepth (depth : Nat) (rest : Except HelperError Unit) : Except HelperError Unit :=
  if maxJsonDepth < depth then fail "canonical JSON exceeds its nesting bound" else rest

mutual

def validateJsonDomain (depth : Nat) : PyJson F → Except HelperError Unit
  | .null => atDepth depth (.ok ())
  | .bool _ => atDepth depth (.ok ())
  | .int n => atDepth depth (if n < -u64Max ∨ u64Max < n then
      fail "canonical JSON integer exceeds its bounded domain" else .ok ())
  | .float _ => atDepth depth (fail "canonical JSON contains a forbidden value type")
  | .str s => atDepth depth (if maxStringCharacters < s.length ∨ CodePoint.char (Char.ofNat 0) ∈ s then
      fail "canonical JSON string is oversized or contains NUL" else .ok ())
  | .arr items => atDepth depth (if maxContainerItems < items.length then
      fail "canonical JSON list exceeds its item bound" else validateItems (depth + 1) items)
  | .obj entries => atDepth depth (if maxContainerItems < entries.length then
      fail "canonical JSON mapping exceeds its item bound" else validateEntries (depth + 1) entries)

def validateItems (depth : Nat) : List (PyJson F) → Except HelperError Unit
  | [] => .ok ()
  | v :: vs => do
    validateJsonDomain depth v
    validateItems depth vs

def validateEntries (depth : Nat) : List (PyStr × PyJson F) → Except HelperError Unit
  | [] => .ok ()
  | (k, v) :: kvs =>
    if k = [] ∨ 192 < k.length then fail "canonical JSON has an invalid mapping key"
    else do
      validateJsonDomain depth v
      validateEntries depth kvs

end

def boundedCanonicalJsonBytes (maximumBytes : Nat) (label : String) (value : PyJson F) :
    Except HelperError (List UInt8) :=
  if !value.isMapping then fail (label ++ " is not a mapping")
  else if maximumBytes = 0 then fail (label ++ " byte bound is invalid")
  else do
    validateJsonDomain 0 value
    match (dumps json.floatRepr value).encode with
    | none => .error ⟨.other "UnicodeEncodeError", "surrogates not allowed"⟩
    | some text =>
      if maximumBytes < (text ++ [newline]).length then fail (label ++ " exceeds its byte bound")
      else .ok (text ++ [newline])

def canonicalJsonBytes : PyJson F → Except HelperError (List UInt8) :=
  boundedCanonicalJsonBytes json maxPacketBytes "canonical protocol record"

/-- `isinstance(exc, PrivilegedHelperError)` -/
def isHelperError : ErrorKind → Bool
  | .other _ => false
  | _ => true

def strictBoundedJsonBytes (maximumBytes : Nat) (label : String) (payload : List UInt8) :
    Except HelperError (PyJson F) :=
  if payload = [] ∨ maximumBytes < payload.length then protocolError (label ++ " is empty or oversized")
  else if payload.getLast? ≠ some newline ∨ 0 ∈ payload then
    protocolError (label ++ " is not one terminated JSON record")
  else match PyStr.decode payload with
    | none => protocolError "protocol packet is not strict UTF-8 JSON"
    | some text =>
      match json.loads text with
      | .error (.protocolError message) => protocolError message
      | .error (.valueError _) => protocolError "protocol packet is not strict UTF-8 JSON"
      | .error .recursionError => .error ⟨.other "RecursionError", "maximum recursion depth exceeded"⟩
      | .ok value =>
        match boundedCanonicalJsonBytes json maximumBytes label value with
        | .error e => if isHelperError e.kind then protocolError e.message else .error e
        | .ok encoded =>
          if encoded ≠ payload then protocolError (label ++ " is not canonically encoded") else .ok value

def strictJsonBytes : List UInt8 → Except HelperError (PyJson F) :=
  strictBoundedJsonBytes json maxPacketBytes "protocol packet"

/-- What `recvmsg` returns, and the kind of the socket. -/
structure Received where
  seqpacket : Bool
  payload : List UInt8
  ancillary : Bool
  truncated : Bool
  controlTruncated : Bool

/-- `recv_packet`, without the descriptors that it closes. -/
def recvPacket (message : Received) : Except HelperError (PyJson F) :=
  if !message.seqpacket then protocolError "helper requires AF_UNIX SOCK_SEQPACKET"
  else if message.payload = [] then .error ⟨.peerClosed, "privileged helper peer closed its session"⟩
  else if message.truncated ∨ maxPacketBytes < message.payload.length then
    protocolError "protocol packet was truncated or oversized"
  else if message.controlTruncated ∨ message.ancillary then
    protocolError "protocol packet contains forbidden or truncated ancillary data"
  else strictJsonBytes json message.payload

end Functions

/-! ## The domain does not see the order of keys -/

section Domain

variable {F : Type}

theorem bind_ok {ε : Type} {x y : Except ε Unit} : (do x; y) = .ok () ↔ x = .ok () ∧ y = .ok () := by
  cases x with
  | error e => exact ⟨nofun, nofun⟩
  | ok u => exact ⟨fun h => ⟨rfl, h⟩, fun h => h.2⟩

theorem atDepth_ok {depth : Nat} {rest : Except HelperError Unit} :
    atDepth depth rest = .ok () ↔ depth ≤ maxJsonDepth ∧ rest = .ok () := by
  unfold atDepth
  by_cases h : maxJsonDepth < depth
  · rw [if_pos h]
    exact ⟨nofun, fun hand => absurd hand.1 (Nat.not_le.mpr h)⟩
  · rw [if_neg h]
    exact ⟨fun hrest => ⟨Nat.not_lt.mp h, hrest⟩, fun hand => hand.2⟩

theorem ite_fail_ok {c : Prop} [Decidable c] {message : String} {rest : Except HelperError Unit} :
    (if c then fail message else rest) = .ok () ↔ ¬ c ∧ rest = .ok () := by
  by_cases h : c
  · rw [if_pos h]
    exact ⟨nofun, fun hand => absurd h hand.1⟩
  · rw [if_neg h]
    exact ⟨fun hrest => ⟨h, hrest⟩, fun hand => hand.2⟩

theorem validateEntries_ok {depth : Nat} {entries : List (PyStr × PyJson F)} :
    validateEntries depth entries = .ok () ↔
      ∀ entry ∈ entries, ¬ (entry.1 = [] ∨ 192 < entry.1.length) ∧ validateJsonDomain depth entry.2 = .ok () := by
  induction entries with
  | nil => exact ⟨fun _ => nofun, fun _ => rfl⟩
  | cons entry entries ih => rw [validateEntries, ite_fail_ok, bind_ok, ih, forall_mem_cons, and_assoc]

theorem length_sortItems (items : List (PyJson F)) : (sortItems items).length = items.length := by
  induction items with
  | nil => rfl
  | cons v vs ih => rw [sortItems, length_cons, length_cons, ih]

theorem length_sortValues (entries : List (PyStr × PyJson F)) : (sortValues entries).length = entries.length := by
  induction entries with
  | nil => rfl
  | cons entry entries ih => rw [sortValues, length_cons, length_cons, ih]

mutual

theorem validate_sortKeys : ∀ (v : PyJson F) (depth : Nat),
    validateJsonDomain depth (sortKeys v) = .ok () ↔ validateJsonDomain depth v = .ok ()
  | .null, _ | .bool _, _ | .int _, _ | .float _, _ | .str _, _ => .rfl
  | .arr items, depth => by
    rw [sortKeys, validateJsonDomain, validateJsonDomain, atDepth_ok, atDepth_ok, ite_fail_ok, ite_fail_ok,
      length_sortItems, validateItems_sortItems items]
  | .obj entries, depth => by
    have hlength : (sortEntries (sortValues entries)).length = entries.length :=
      (sortEntries_perm _).length_eq.trans (length_sortValues entries)
    have hentries : validateEntries (depth + 1) (sortEntries (sortValues entries)) = .ok () ↔
        validateEntries (depth + 1) (sortValues entries) = .ok () := by
      rw [validateEntries_ok, validateEntries_ok]
      exact forall_congr' fun entry => imp_congr_left (sortEntries_perm _).mem_iff
    rw [sortKeys, validateJsonDomain, validateJsonDomain, atDepth_ok, atDepth_ok, ite_fail_ok, ite_fail_ok,
      hlength, hentries, validateEntries_sortValues entries]

theorem validateItems_sortItems : ∀ (items : List (PyJson F)) (depth : Nat),
    validateItems depth (sortItems items) = .ok () ↔ validateItems depth items = .ok ()
  | [], _ => .rfl
  | v :: vs, depth => by
    rw [sortItems, validateItems, validateItems, bind_ok, bind_ok, validate_sortKeys v, validateItems_sortItems vs]

theorem validateEntries_sortValues : ∀ (entries : List (PyStr × PyJson F)) (depth : Nat),
    validateEntries depth (sortValues entries) = .ok () ↔ validateEntries depth entries = .ok ()
  | [], _ => .rfl
  | (k, v) :: kvs, depth => by
    rw [sortValues, validateEntries, validateEntries, ite_fail_ok, ite_fail_ok, bind_ok, bind_ok,
      validate_sortKeys v, validateEntries_sortValues kvs]

end

theorem validate_of_same {v w : PyJson F} (h : Same v w) (depth : Nat) :
    validateJsonDomain depth v = .ok () ↔ validateJsonDomain depth w = .ok () := by
  rw [← validate_sortKeys v, h, validate_sortKeys]

/-- Whatever `x` raises is a refusal of `_fail`. -/
def Refuses (x : Except HelperError Unit) : Prop := ∀ e, x = .error e → e.kind = .privilegedHelperError

theorem refuses_ok : Refuses (.ok ()) := fun _ h => by cases h

theorem refuses_ite {c : Prop} [Decidable c] {message : String} {rest : Except HelperError Unit} (h : Refuses rest) :
    Refuses (if c then fail message else rest) := by
  split
  · intro e he
    exact Except.error.inj he ▸ rfl
  · exact h

theorem Refuses.bind {x y : Except HelperError Unit} (hx : Refuses x) (hy : Refuses y) : Refuses (do x; y) := by
  cases x with
  | error e => exact fun e' he => hx e' he
  | ok u => exact hy

mutual

theorem validate_error : ∀ (v : PyJson F) (depth : Nat), Refuses (validateJsonDomain depth v)
  | .null, _ | .bool _, _ => refuses_ite refuses_ok
  | .int _, _ | .str _, _ => refuses_ite (refuses_ite refuses_ok)
  | .float _, _ => refuses_ite fun _ h => Except.error.inj h ▸ rfl
  | .arr items, depth => refuses_ite (refuses_ite (validateItems_error items (depth + 1)))
  | .obj entries, depth => refuses_ite (refuses_ite (validateEntries_error entries (depth + 1)))

theorem validateItems_error : ∀ (items : List (PyJson F)) (depth : Nat), Refuses (validateItems depth items)
  | [], _ => refuses_ok
  | v :: vs, depth => (validate_error v depth).bind (validateItems_error vs depth)

theorem validateEntries_error : ∀ (entries : List (PyStr × PyJson F)) (depth : Nat),
    Refuses (validateEntries depth entries)
  | [], _ => refuses_ok
  | (_, v) :: kvs, depth => refuses_ite ((validate_error v depth).bind (validateEntries_error kvs depth))

end

end Domain

/-! ## Writing -/

section Writing

variable {F : Type} {json : JsonModule F}

def HasSurrogate (v : PyJson F) : Prop := ∃ p ∈ points v, p.char? = none

theorem high_of_surrogate {p : CodePoint} (h : p.char? = none) : 128 ≤ p.value := by
  cases p with
  | char c => exact absurd h nofun
  | surrogate n =>
    show 128 ≤ 0xd800 + n.val
    omega

theorem encodable_dumps (hfloat : ∀ x, Spelled (json.floatRepr x)) (v : PyJson F) :
    (∃ bytes, (dumps json.floatRepr v).encode = some bytes) ↔ ¬ HasSurrogate v := by
  rw [PyStr.encodable_iff]
  constructor
  · rintro h ⟨p, hp, hnone⟩
    exact h p ((mem_dumps hfloat (high_of_surrogate hnone)).mpr hp) hnone
  · intro h p hp hnone
    exact h ⟨p, (mem_dumps hfloat (high_of_surrogate hnone)).mp hp, hnone⟩

/-- The value is one that `canonical_json_bytes` tries to encode. -/
structure InDomain (v : PyJson F) : Prop where
  mapping : v.isMapping = true
  valid : validateJsonDomain 0 v = .ok ()

variable (json) in
theorem bounded_of_not_inDomain {v : PyJson F} (h : ¬ InDomain v) (maximumBytes : Nat) (label : String) :
    ∃ message, boundedCanonicalJsonBytes json maximumBytes label v = .error ⟨.privilegedHelperError, message⟩ := by
  unfold boundedCanonicalJsonBytes
  by_cases hmapping : v.isMapping = true
  · by_cases hzero : maximumBytes = 0
    · rw [if_neg (by simp [hmapping]), if_pos hzero]
      exact ⟨_, rfl⟩
    · rw [if_neg (by simp [hmapping]), if_neg hzero]
      cases hvalid : validateJsonDomain 0 v with
      | error e =>
        have hkind := validate_error v 0 e hvalid
        obtain ⟨kind, message⟩ := e
        obtain rfl : kind = .privilegedHelperError := hkind
        exact ⟨message, rfl⟩
      | ok u => exact absurd ⟨hmapping, hvalid⟩ h
  · rw [if_pos (by simp [hmapping])]
    exact ⟨_, rfl⟩

theorem bounded_eq {v : PyJson F} (h : InDomain v) {maximumBytes : Nat} (hmax : maximumBytes ≠ 0) (label : String) :
    boundedCanonicalJsonBytes json maximumBytes label v =
      match (dumps json.floatRepr v).encode with
      | none => .error ⟨.other "UnicodeEncodeError", "surrogates not allowed"⟩
      | some text =>
        if maximumBytes < (text ++ [newline]).length then fail (label ++ " exceeds its byte bound")
        else .ok (text ++ [newline]) := by
  unfold boundedCanonicalJsonBytes
  rw [if_neg (by simp [h.mapping]), if_neg hmax, h.valid]
  rfl

theorem bounded_ok {maximumBytes : Nat} (hmax : maximumBytes ≠ 0) {label : String} {v : PyJson F} {bytes : List UInt8} :
    boundedCanonicalJsonBytes json maximumBytes label v = .ok bytes ↔
      InDomain v ∧ bytes.length ≤ maximumBytes ∧
        ∃ text, (dumps json.floatRepr v).encode = some text ∧ bytes = text ++ [newline] := by
  by_cases h : InDomain v
  · rw [bounded_eq h hmax]
    cases hencode : (dumps json.floatRepr v).encode with
    | none => exact ⟨nofun, fun ⟨_, _, _, heq, _⟩ => absurd heq nofun⟩
    | some text =>
      show (if maximumBytes < (text ++ [newline]).length then _ else _) = _ ↔ _
      by_cases hlong : maximumBytes < (text ++ [newline]).length
      · rw [if_pos hlong]
        constructor
        · exact nofun
        · rintro ⟨-, hle, text', heq, rfl⟩
          obtain rfl := Option.some.inj heq
          exact absurd hle (Nat.not_le.mpr hlong)
      · rw [if_neg hlong]
        constructor
        · intro heq
          obtain rfl := Except.ok.inj heq
          exact ⟨h, Nat.not_lt.mp hlong, text, rfl, rfl⟩
        · rintro ⟨-, -, text', heq, rfl⟩
          obtain rfl := Option.some.inj heq
          rfl
  · obtain ⟨message, herror⟩ := bounded_of_not_inDomain json h maximumBytes label
    rw [herror]
    exact ⟨nofun, fun hand => absurd hand.1 h⟩

theorem bounded_error (hfloat : ∀ x, Spelled (json.floatRepr x)) {maximumBytes : Nat} (hmax : maximumBytes ≠ 0)
    {label : String} {v : PyJson F} {e : HelperError}
    (h : boundedCanonicalJsonBytes json maximumBytes label v = .error e) :
    isHelperError e.kind = false ↔ InDomain v ∧ HasSurrogate v := by
  by_cases hdomain : InDomain v
  · rw [bounded_eq hdomain hmax] at h
    cases hencode : (dumps json.floatRepr v).encode with
    | none =>
      rw [hencode] at h
      obtain rfl := Except.error.inj h
      refine ⟨fun _ => ⟨hdomain, ?_⟩, fun _ => rfl⟩
      by_contra hnot
      obtain ⟨bytes, hbytes⟩ := (encodable_dumps hfloat v).mpr hnot
      exact absurd (hencode.symm.trans hbytes) nofun
    | some text =>
      rw [hencode] at h
      have hnot := (encodable_dumps hfloat v).mp ⟨text, hencode⟩
      change (if maximumBytes < (text ++ [newline]).length then _ else _) = _ at h
      split_ifs at h
      obtain rfl := Except.error.inj h
      exact ⟨nofun, fun hand => absurd hand.2 hnot⟩
  · obtain ⟨message, herror⟩ := bounded_of_not_inDomain json hdomain maximumBytes label
    obtain rfl := Except.error.inj (herror.symm.trans h)
    exact ⟨nofun, fun hand => absurd hand.1 hdomain⟩

theorem inDomain_of_same {v w : PyJson F} (h : Same v w) (hw : InDomain w) : InDomain v where
  mapping := by
    have hkeys : ∀ u : PyJson F, (sortKeys u).isMapping = u.isMapping := fun u => by cases u <;> rfl
    rw [← hkeys v, h, hkeys w, hw.mapping]
  valid := (validate_of_same h 0).mpr hw.valid

theorem dumps_of_same {v w : PyJson F} (h : Same v w) : dumps json.floatRepr v = dumps json.floatRepr w := by
  rw [dumps, h, dumps]

end Writing

/-! ## Reading -/

section Reading

variable {F : Type} {json : JsonModule F}

structure Framed (payload : List UInt8) : Prop where
  nonempty : payload ≠ []
  bounded : payload.length ≤ maxPacketBytes
  terminated : payload.getLast? = some newline
  zero : (0 : UInt8) ∉ payload

/-- A payload whose JSON text is nested too deeply for `json.loads`, or denotes a mapping of the domain with half of
a surrogate pair. -/
def Hostile (json : JsonModule F) (payload : List UInt8) : Prop :=
  ∃ text, PyStr.decode payload = some text ∧
    (json.loads text = .error .recursionError ∨ ∃ v, json.loads text = .ok v ∧ InDomain v ∧ HasSurrogate v)

variable {payload : List UInt8}

variable (json) in
theorem strict_of_not_framed (h : ¬ Framed payload) :
    ∃ message, strictJsonBytes json payload = .error ⟨.protocolError, message⟩ := by
  unfold strictJsonBytes strictBoundedJsonBytes
  by_cases hsize : payload = [] ∨ maxPacketBytes < payload.length
  · rw [if_pos hsize]
    exact ⟨_, rfl⟩
  · rw [if_neg hsize]
    by_cases hend : payload.getLast? ≠ some newline ∨ 0 ∈ payload
    · rw [if_pos hend]
      exact ⟨_, rfl⟩
    · obtain ⟨hne, hle⟩ := not_or.mp hsize
      obtain ⟨hlast, hzero⟩ := not_or.mp hend
      exact absurd ⟨hne, Nat.not_lt.mp hle, not_not.mp hlast, hzero⟩ h

variable (json) in
theorem strict_of_framed (h : Framed payload) {text : PyStr}
    (htext : PyStr.decode payload = some text) :
    strictJsonBytes json payload = match json.loads text with
      | .error (.protocolError message) => protocolError message
      | .error (.valueError _) => protocolError "protocol packet is not strict UTF-8 JSON"
      | .error .recursionError => .error ⟨.other "RecursionError", "maximum recursion depth exceeded"⟩
      | .ok value =>
        match boundedCanonicalJsonBytes json maxPacketBytes "protocol packet" value with
        | .error e => if isHelperError e.kind then protocolError e.message else .error e
        | .ok encoded =>
          if encoded ≠ payload then protocolError "protocol packet is not canonically encoded" else .ok value := by
  unfold strictJsonBytes strictBoundedJsonBytes
  rw [if_neg (not_or.mpr ⟨h.nonempty, Nat.not_lt.mpr h.bounded⟩),
    if_neg (not_or.mpr ⟨not_not.mpr h.terminated, h.zero⟩), htext]
  rfl

theorem maxPacketBytes_ne_zero : maxPacketBytes ≠ 0 := by decide

/-- The property of a payload: it is refused with a `ProtocolError`, or is the canonical text of what is returned. -/
def ClosedDecoding (json : JsonModule F) (payload : List UInt8) : Prop :=
  (∃ message, strictJsonBytes json payload = .error ⟨.protocolError, message⟩) ∨
    ∃ v, strictJsonBytes json payload = .ok v ∧ v.isMapping = true ∧ canonicalJsonBytes json v = .ok payload

variable {v : PyJson F}

theorem strict_ok (h : strictJsonBytes json payload = .ok v) :
    Framed payload ∧ boundedCanonicalJsonBytes json maxPacketBytes "protocol packet" v = .ok payload := by
  by_cases hframed : Framed payload
  · refine ⟨hframed, ?_⟩
    cases htext : PyStr.decode payload with
    | none =>
      unfold strictJsonBytes strictBoundedJsonBytes at h
      rw [htext] at h
      split_ifs at h
      all_goals exact absurd h nofun
    | some text =>
      rw [strict_of_framed _ hframed htext] at h
      split at h
      · exact absurd h nofun
      · exact absurd h nofun
      · exact absurd h nofun
      · split at h
        · split_ifs at h
          all_goals exact absurd h nofun
        · rename_i encoded hencoded
          split_ifs at h with hcanonical
          · exact absurd h nofun
          · obtain rfl := Except.ok.inj h
            rw [hencoded, not_not.mp hcanonical]
  · obtain ⟨message, herror⟩ := strict_of_not_framed json hframed
    exact absurd (herror.symm.trans h) nofun

theorem canonical_of_strict (h : strictJsonBytes json payload = .ok v) :
    v.isMapping = true ∧ canonicalJsonBytes json v = .ok payload := by
  have hbounded := (bounded_ok maxPacketBytes_ne_zero).mp (strict_ok h).2
  exact ⟨hbounded.1.mapping, (bounded_ok maxPacketBytes_ne_zero).mpr hbounded⟩

theorem hostile_iff {text : PyStr} (htext : PyStr.decode payload = some text) :
    Hostile json payload ↔ json.loads text = .error .recursionError ∨
      ∃ v, json.loads text = .ok v ∧ InDomain v ∧ HasSurrogate v := by
  constructor
  · rintro ⟨text', heq, h⟩
    obtain rfl := Option.some.inj (htext.symm.trans heq)
    exact h
  · exact fun h => ⟨text, htext, h⟩

/-- A refusal by the protocol, an accepted value, or an error outside the protocol; the last for the framed hostile
payloads. -/
inductive Outcome (json : JsonModule F) (payload : List UInt8) : Prop
  | refused (message : String) (h : strictJsonBytes json payload = .error ⟨.protocolError, message⟩)
      (hnot : ¬ (Framed payload ∧ Hostile json payload))
  | accepted (v : PyJson F) (h : strictJsonBytes json payload = .ok v)
      (hnot : ¬ (Framed payload ∧ Hostile json payload))
  | outside (e : HelperError) (h : strictJsonBytes json payload = .error e) (hclass : isHelperError e.kind = false)
      (hframed : Framed payload) (hhostile : Hostile json payload)

theorem outcome_of_value (hfloat : ∀ x, Spelled (json.floatRepr x)) (hframed : Framed payload)
    {text : PyStr} (htext : PyStr.decode payload = some text) (hloads : json.loads text = .ok v) :
    Outcome json payload := by
  have hstrict := strict_of_framed json hframed htext
  have hhostile : Hostile json payload ↔ InDomain v ∧ HasSurrogate v := by
    rw [hostile_iff htext, hloads]
    constructor
    · rintro (h | ⟨w, h, hw⟩)
      · exact absurd h nofun
      · exact Except.ok.inj h ▸ hw
    · exact fun h => .inr ⟨v, rfl, h⟩
  cases hbounded : boundedCanonicalJsonBytes json maxPacketBytes "protocol packet" v with
  | error e =>
    have hkind := bounded_error hfloat maxPacketBytes_ne_zero hbounded
    simp only [hloads, hbounded] at hstrict
    cases hclass : isHelperError e.kind with
    | true =>
      rw [hclass, if_pos rfl] at hstrict
      refine .refused e.message hstrict fun hand => ?_
      exact absurd (hclass.symm.trans (hkind.mpr (hhostile.mp hand.2))) nofun
    | false =>
      rw [hclass, if_neg nofun] at hstrict
      exact .outside e hstrict hclass hframed (hhostile.mpr (hkind.mp hclass))
  | ok encoded =>
    obtain ⟨-, -, bytes, hbytes, -⟩ := (bounded_ok maxPacketBytes_ne_zero).mp hbounded
    have hnone := (encodable_dumps hfloat v).mp ⟨bytes, hbytes⟩
    have hnot : ¬ (Framed payload ∧ Hostile json payload) := fun hand => hnone (hhostile.mp hand.2).2
    simp only [hloads, hbounded] at hstrict
    by_cases hcanonical : encoded = payload
    · rw [if_neg (not_not.mpr hcanonical)] at hstrict
      exact .accepted v hstrict hnot
    · rw [if_pos hcanonical] at hstrict
      exact .refused _ hstrict hnot

theorem outcome (hfloat : ∀ x, Spelled (json.floatRepr x)) (payload : List UInt8) : Outcome json payload := by
  by_cases hframed : Framed payload
  · cases htext : PyStr.decode payload with
    | none =>
      refine .refused "protocol packet is not strict UTF-8 JSON" ?_ ?_
      · unfold strictJsonBytes strictBoundedJsonBytes
        rw [if_neg (not_or.mpr ⟨hframed.nonempty, Nat.not_lt.mpr hframed.bounded⟩),
          if_neg (not_or.mpr ⟨not_not.mpr hframed.terminated, hframed.zero⟩), htext]
        rfl
      · rintro ⟨-, text, heq, -⟩
        exact absurd (htext.symm.trans heq) nofun
    | some text =>
      have hstrict := strict_of_framed json hframed htext
      cases hloads : json.loads text with
      | ok v => exact outcome_of_value hfloat hframed htext hloads
      | error e =>
        rw [hloads] at hstrict
        have hhostile : Hostile json payload ↔ e = .recursionError := by
          rw [hostile_iff htext, hloads]
          constructor
          · rintro (h | ⟨v, h, -⟩)
            · exact Except.error.inj h
            · exact absurd h nofun
          · exact fun h => .inl (h ▸ rfl)
        cases e with
        | protocolError message => exact .refused message hstrict fun hand => absurd (hhostile.mp hand.2) nofun
        | valueError message => exact .refused _ hstrict fun hand => absurd (hhostile.mp hand.2) nofun
        | recursionError => exact .outside _ hstrict rfl hframed (hhostile.mpr rfl)
  · obtain ⟨message, h⟩ := strict_of_not_framed json hframed
    exact .refused message h fun hand => hframed hand.1

theorem closedDecoding_iff (hfloat : ∀ x, Spelled (json.floatRepr x)) (payload : List UInt8) :
    ClosedDecoding json payload ↔ ¬ (Framed payload ∧ Hostile json payload) := by
  cases outcome hfloat payload with
  | refused message h hnot => exact ⟨fun _ => hnot, fun _ => .inl ⟨message, h⟩⟩
  | accepted v h hnot => exact ⟨fun _ => hnot, fun _ => .inr ⟨v, h, canonical_of_strict h⟩⟩
  | outside e h hclass hframed hhostile =>
    refine ⟨fun hclosed => ?_, fun hnot => absurd ⟨hframed, hhostile⟩ hnot⟩
    rcases hclosed with ⟨message, h'⟩ | ⟨v, h', -⟩
    · obtain rfl := Except.error.inj (h.symm.trans h')
      exact absurd hclass nofun
    · exact absurd (h.symm.trans h') nofun

/-- The property of a mapping: it is refused with a `PrivilegedHelperError`, or its bytes are read back. -/
def ClosedEncoding (json : JsonModule F) (v : PyJson F) : Prop :=
  (∃ e, canonicalJsonBytes json v = .error e ∧ isHelperError e.kind = true) ∨
    ∃ bytes w, canonicalJsonBytes json v = .ok bytes ∧ strictJsonBytes json bytes = .ok w ∧ Same w v

/-- `json.loads` gives back the value of a text that ends with a newline. -/
def Inverse (json : JsonModule F) (v : PyJson F) : Prop :=
  ∃ w, json.loads (dumps json.floatRepr v ++ PyStr.lit "\n") = .ok w ∧ Same w v

theorem strict_of_canonical (hfloat : ∀ x, Spelled (json.floatRepr x)) {bytes : List UInt8}
    (h : canonicalJsonBytes json v = .ok bytes) (hinverse : Inverse json v) :
    ∃ w, strictJsonBytes json bytes = .ok w ∧ Same w v := by
  obtain ⟨hdomain, hle, text, htext, rfl⟩ := (bounded_ok maxPacketBytes_ne_zero).mp h
  obtain ⟨w, hloads, hsame⟩ := hinverse
  have hline : PyStr.encode (PyStr.lit "\n") = some [newline] := by decide
  have hdecode : PyStr.decode (text ++ [newline]) = some (dumps json.floatRepr v ++ PyStr.lit "\n") :=
    PyStr.decode_eq_some.mpr (PyStr.encode_append htext hline)
  have hframed : Framed (text ++ [newline]) := by
    refine ⟨by simp, hle, by rw [getLast?_concat], fun hmem => ?_⟩
    rcases mem_append.mp hmem with hmem | hmem
    · have hchar := PyStr.mem_of_mem_encode htext hmem (by decide)
      exact absurd (printable_dumps hfloat v _ hchar) (by decide)
    · exact absurd hmem (by decide)
  have hbounded : boundedCanonicalJsonBytes json maxPacketBytes "protocol packet" w = .ok (text ++ [newline]) :=
    (bounded_ok maxPacketBytes_ne_zero).mpr
      ⟨inDomain_of_same hsame hdomain, hle, text, by rw [dumps_of_same hsame]; exact htext, rfl⟩
  refine ⟨w, ?_, hsame⟩
  rw [strict_of_framed _ hframed hdecode, hloads]
  show (match boundedCanonicalJsonBytes json maxPacketBytes "protocol packet" w with
    | .error e => if isHelperError e.kind then protocolError e.message else .error e
    | .ok encoded => if encoded ≠ _ then protocolError _ else .ok w) = _
  rw [hbounded]
  exact if_neg (not_not.mpr rfl)

theorem closedEncoding_iff (hfloat : ∀ x, Spelled (json.floatRepr x)) (hdomain : InDomain v)
    (hinverse : Inverse json v) : ClosedEncoding json v ↔ ¬ HasSurrogate v := by
  cases hcanonical : canonicalJsonBytes json v with
  | error e =>
    have hkind := bounded_error hfloat maxPacketBytes_ne_zero hcanonical
    constructor
    · rintro (⟨e', he, hclass⟩ | ⟨bytes, w, he, -⟩) hsurrogate
      · obtain rfl := Except.error.inj (hcanonical.symm.trans he)
        rw [hkind.mpr ⟨hdomain, hsurrogate⟩] at hclass
        exact absurd hclass nofun
      · exact absurd (hcanonical.symm.trans he) nofun
    · intro hnone
      refine .inl ⟨e, hcanonical, ?_⟩
      by_contra hclass
      exact hnone (hkind.mp (by simpa using hclass)).2
  | ok bytes =>
    obtain ⟨w, hstrict, hsame⟩ := strict_of_canonical hfloat hcanonical hinverse
    obtain ⟨-, -, text, htext, -⟩ := (bounded_ok maxPacketBytes_ne_zero).mp hcanonical
    have hnone := (encodable_dumps hfloat v).mp ⟨text, htext⟩
    exact ⟨fun _ => hnone, fun _ => Or.inr ⟨bytes, w, hcanonical, hstrict, hsame⟩⟩

theorem strict_injective {payload payload' : List UInt8} {v v' : PyJson F} (h : strictJsonBytes json payload = .ok v)
    (h' : strictJsonBytes json payload' = .ok v') (hsame : Same v v') : payload = payload' := by
  obtain ⟨-, -, text, htext, rfl⟩ := (bounded_ok maxPacketBytes_ne_zero).mp (strict_ok h).2
  obtain ⟨-, -, text', htext', rfl⟩ := (bounded_ok maxPacketBytes_ne_zero).mp (strict_ok h').2
  rw [dumps_of_same hsame] at htext
  rw [Option.some.inj (htext.symm.trans htext')]

/-- The property of a message: `recv_packet` returns a mapping or raises one of the protocol's errors. -/
def ClosedReceive (json : JsonModule F) (message : Received) : Prop :=
  (∃ e, recvPacket json message = .error e ∧ isHelperError e.kind = true) ∨
    ∃ v, recvPacket json message = .ok v ∧ v.isMapping = true

def Received.Whole (message : Received) : Prop :=
  message.seqpacket = true ∧ message.truncated = false ∧ message.controlTruncated = false ∧ message.ancillary = false

theorem closedReceive_iff (hfloat : ∀ x, Spelled (json.floatRepr x)) (message : Received) :
    ClosedReceive json message ↔ ¬ (message.Whole ∧ Framed message.payload ∧ Hostile json message.payload) := by
  by_cases hreach : message.Whole ∧ Framed message.payload
  · obtain ⟨⟨hpacket, htruncated, hcontrol, hancillary⟩, hframed⟩ := hreach
    have hrecv : recvPacket json message = strictJsonBytes json message.payload := by
      unfold recvPacket
      rw [if_neg (by simp [hpacket]), if_neg hframed.nonempty,
        if_neg (by simp [htruncated, hframed.bounded]), if_neg (by simp [hcontrol, hancillary])]
    unfold ClosedReceive
    rw [hrecv]
    cases outcome hfloat message.payload with
    | refused text h hnot => exact ⟨fun _ hand => hnot hand.2, fun _ => .inl ⟨_, h, rfl⟩⟩
    | accepted v h hnot => exact ⟨fun _ hand => hnot hand.2, fun _ => .inr ⟨v, h, (canonical_of_strict h).1⟩⟩
    | outside e h hclass _ hhostile =>
      refine ⟨fun hclosed => ?_, fun hnot => ?_⟩
      · rcases hclosed with ⟨e', h', hclass'⟩ | ⟨v, h', -⟩
        · obtain rfl := Except.error.inj (h.symm.trans h')
          exact absurd (hclass.symm.trans hclass') nofun
        · exact absurd (h.symm.trans h') nofun
      · exact absurd ⟨⟨hpacket, htruncated, hcontrol, hancillary⟩, hframed, hhostile⟩ hnot
  · refine ⟨fun _ hand => hreach ⟨hand.1, hand.2.1⟩, fun _ => .inl ?_⟩
    unfold recvPacket
    by_cases hpacket : message.seqpacket = true
    · rw [if_neg (by simp [hpacket])]
      by_cases hempty : message.payload = []
      · rw [if_pos hempty]
        exact ⟨_, rfl, rfl⟩
      · rw [if_neg hempty]
        by_cases hlong : message.truncated = true ∨ maxPacketBytes < message.payload.length
        · rw [if_pos hlong]
          exact ⟨_, rfl, rfl⟩
        · rw [if_neg hlong]
          by_cases hcontrol : message.controlTruncated = true ∨ message.ancillary = true
          · rw [if_pos hcontrol]
            exact ⟨_, rfl, rfl⟩
          · rw [if_neg hcontrol]
            have hframed : ¬ Framed message.payload := by
              intro h
              obtain ⟨htruncated, -⟩ := not_or.mp hlong
              obtain ⟨hctrunc, hancillary⟩ := not_or.mp hcontrol
              exact hreach ⟨⟨hpacket, by simpa using htruncated, by simpa using hctrunc, by simpa using hancillary⟩, h⟩
            obtain ⟨text, herror⟩ := strict_of_not_framed json hframed
            exact ⟨_, herror, rfl⟩
    · rw [if_pos (by simp [hpacket])]
      exact ⟨_, rfl, rfl⟩

end Reading

/-- The four statements about the packets: the decoder, the encoder and the receiver stay within the errors of the
protocol exactly on the inputs that are not hostile, and an accepted packet is fixed by its value. -/
theorem packets_closed {F : Type} (json : JsonModule F) (hfloat : ∀ x, Spelled (json.floatRepr x)) :
    (∀ payload, ClosedDecoding json payload ↔ ¬ (Framed payload ∧ Hostile json payload)) ∧
    (∀ v, InDomain v → Inverse json v → (ClosedEncoding json v ↔ ¬ HasSurrogate v)) ∧
    (∀ payload payload' v v', strictJsonBytes json payload = .ok v → strictJsonBytes json payload' = .ok v' →
      Same v v' → payload = payload') ∧
    (∀ message, ClosedReceive json message ↔
      ¬ (message.Whole ∧ Framed message.payload ∧ Hostile json message.payload)) :=
  ⟨closedDecoding_iff hfloat, fun _ hdomain hinverse => closedEncoding_iff hfloat hdomain hinverse,
    fun _ _ _ _ h h' hsame => strict_injective h h' hsame, closedReceive_iff hfloat⟩

/-- A module `json` that reads one text. -/
def jsonOf (text : PyStr) (value : PyJson Unit) : JsonModule Unit where
  floatRepr _ := ['1', '.', '0']
  loads document := if document = text then .ok value else .error (.valueError "Expecting value")

def oneNumber : PyJson Unit := .obj [(PyStr.lit "a", .int 1)]

def numberJson : JsonModule Unit := jsonOf (PyStr.lit "\x7b\"a\":1\x7d\n") oneNumber

theorem packets_closed_number :
    ClosedDecoding numberJson [0x7b, 0x22, 0x61, 0x22, 0x3a, 0x31, 0x7d, newline] ∧
      ClosedEncoding numberJson oneNumber := by
  have hfloat : ∀ x, Spelled (numberJson.floatRepr x) := fun _ =>
    show Spelled ['1', '.', '0'] from spelled_of_all (by decide)
  have hnone : ¬ HasSurrogate oneNumber := by
    rintro ⟨p, hp, hnone⟩
    have hmem : p ∈ [CodePoint.char 'a'] := hp
    obtain rfl := mem_singleton.mp hmem
    exact absurd hnone nofun
  obtain ⟨hdecoding, hencoding, -, -⟩ := packets_closed numberJson hfloat
  refine ⟨(hdecoding _).mpr ?_, (hencoding oneNumber ⟨rfl, rfl⟩ ⟨oneNumber, rfl, rfl⟩).mpr hnone⟩
  rintro ⟨-, text, htext, hcase⟩
  have hdecode : PyStr.decode [0x7b, 0x22, 0x61, 0x22, 0x3a, 0x31, 0x7d, newline] =
      some (PyStr.lit "\x7b\"a\":1\x7d\n") := by decide +kernel
  obtain rfl := Option.some.inj (hdecode.symm.trans htext)
  have hloads : numberJson.loads (PyStr.lit "\x7b\"a\":1\x7d\n") = .ok oneNumber := rfl
  rcases hcase with h | ⟨v, h, -, hsurrogate⟩
  · exact absurd (hloads.symm.trans h) nofun
  · obtain rfl := Except.ok.inj (hloads.symm.trans h)
    exact hnone hsurrogate

def halfPair : PyJson Unit := .obj [(PyStr.lit "a", .str [.surrogate 0])]

def halfPairJson : JsonModule Unit := jsonOf (PyStr.lit "\x7b\"a\":\"\\ud800\"\x7d\n") halfPair

def halfPairPacket : List UInt8 :=
  [0x7b, 0x22, 0x61, 0x22, 0x3a, 0x22, 0x5c, 0x75, 0x64, 0x38, 0x30, 0x30, 0x22, 0x7d, newline]

/-- Reading the packet, writing its value and receiving it raise `UnicodeEncodeError`. -/
theorem halfPair_outside : ¬ ClosedDecoding halfPairJson halfPairPacket ∧
    (validateJsonDomain 0 halfPair = .ok () ∧ ¬ ClosedEncoding halfPairJson halfPair) ∧
      ¬ ClosedReceive halfPairJson ⟨true, halfPairPacket, false, false, false⟩ := by
  have hdecode : PyStr.decode halfPairPacket = some (PyStr.lit "\x7b\"a\":\"\\ud800\"\x7d\n") := by decide +kernel
  have hstrict : strictJsonBytes halfPairJson halfPairPacket =
      .error ⟨.other "UnicodeEncodeError", "surrogates not allowed"⟩ := by
    rw [strict_of_framed _ ⟨by decide, by decide, by decide, by decide⟩ hdecode]
    rfl
  have hcanonical : canonicalJsonBytes halfPairJson halfPair =
      .error ⟨.other "UnicodeEncodeError", "surrogates not allowed"⟩ := rfl
  have hrecv : recvPacket halfPairJson ⟨true, halfPairPacket, false, false, false⟩ =
      .error ⟨.other "UnicodeEncodeError", "surrogates not allowed"⟩ := by
    rw [← hstrict]
    rfl
  refine ⟨?_, ⟨rfl, ?_⟩, ?_⟩
  · rintro (⟨message, h⟩ | ⟨v, h, -⟩)
    · exact absurd (hstrict.symm.trans h) (by simp)
    · exact absurd (hstrict.symm.trans h) nofun
  · rintro (⟨e, h, hclass⟩ | ⟨bytes, w, h, -⟩)
    · obtain rfl := Except.error.inj (hcanonical.symm.trans h)
      exact absurd hclass nofun
    · exact absurd (hcanonical.symm.trans h) nofun
  · rintro (⟨e, h, hclass⟩ | ⟨v, h, -⟩)
    · obtain rfl := Except.error.inj (hrecv.symm.trans h)
      exact absurd hclass nofun
    · exact absurd (hrecv.symm.trans h) nofun

end Bravo.Packet

/-
  VlanConnect/CounterDiscipline.lean
  ==================================
  **Send counters over the life of a cipher.**

  An endpoint is one `SecureFrameCipher` that is installed, with one master,
  role and context, any number of times and that encrypts and decrypts in any
  order.  The frames it returns carry the counters `0, 1, 2, …`: a reinstall
  keeps every field, and the counter stops before it can wrap.  Two endpoints
  of opposite roles derive the same keys for each direction, so what one
  returns the other accepts, once, as long as it is inside the window.
-/
import VlanConnect.ReplayWindow
import Mathlib.Data.List.Induction
import Mathlib.Data.List.Nodup

namespace VlanConnect

namespace SecureFrameCipher

variable (K : Crypto) (master : Bytes) (clientSide : Bool) (context : String)

/-! ### Endpoints -/

inductive Call where
  | init
  | encrypt (plain ad : Bytes)
  | decrypt (frame ad : Bytes)
deriving DecidableEq

/-- A frame that `encrypt` returned, with the text and the associated data. -/
structure SentFrame where
  frame : Bytes
  plain : Bytes
  ad : Bytes
deriving DecidableEq

/-- The cipher, the nonempty frames it returned in order, and the counters it
    accepted. -/
structure Endpoint where
  cipher : SecureFrameCipher := {}
  sent : List SentFrame := []
  accepted : List Nat := []
deriving DecidableEq

def call (e : Endpoint) : Call → Endpoint
  | .init => { e with cipher := e.cipher.init K master clientSide context }
  | .encrypt plain ad =>
    let (frame, cipher) := e.cipher.encrypt K plain ad
    { e with
      cipher := cipher
      sent := if frame = [] then e.sent else e.sent ++ [⟨frame, plain, ad⟩] }
  | .decrypt frame ad =>
    let (cipher, accepted) := receive K (e.cipher, e.accepted) (frame, ad)
    { e with cipher := cipher, accepted := accepted }

def callAll (calls : List Call) : Endpoint := calls.foldl (call K master clientSide context) {}

/-! ### One `encrypt` call -/

/-- `encrypt` before the install or at the last counter does nothing. -/
theorem encrypt_refused {c : SecureFrameCipher}
    (h : c.initialized = false ∨ c.sendCounter = UINT64_MAX) (plain ad : Bytes) :
    c.encrypt K plain ad = ([], c) := by
  unfold encrypt
  rw [if_pos (by simpa using h)]

theorem encrypt_accepted {c : SecureFrameCipher} (hinit : c.initialized = true)
    (hctr : c.sendCounter ≠ UINT64_MAX) (plain ad : Bytes) :
    c.encrypt K plain ad =
      (lockFrame K c.sendKey c.sendNonceSeed c.sendCounter ad plain,
        { c with sendCounter := c.sendCounter + 1 }) := by
  unfold encrypt
  rw [if_neg (by simp [hinit, hctr])]
  rfl

theorem lockFrame_ne_nil (key seed : Bytes) (ctr : Nat) (ad plain : Bytes) :
    lockFrame K key seed ctr ad plain ≠ [] := by
  intro h
  have hlen := congrArg List.length h
  simp [lockFrame, writeU64BE, BigEndian.length_encode] at hlen

theorem encrypt_cases (c : SecureFrameCipher) (plain ad : Bytes) :
    c.encrypt K plain ad = ([], c) ∨
      c.initialized = true ∧ c.sendCounter ≠ UINT64_MAX ∧
      c.encrypt K plain ad =
        (lockFrame K c.sendKey c.sendNonceSeed c.sendCounter ad plain,
          { c with sendCounter := c.sendCounter + 1 }) := by
  by_cases hinit : c.initialized = true
  · by_cases hctr : c.sendCounter = UINT64_MAX
    · exact Or.inl (encrypt_refused K (Or.inr hctr) plain ad)
    · exact Or.inr ⟨hinit, hctr, encrypt_accepted K hinit hctr plain ad⟩
  · exact Or.inl (encrypt_refused K (Or.inl (by simpa using hinit)) plain ad)

/-! ### The life of an endpoint -/

/-- What any sequence of calls keeps. -/
structure EndpointInv (calls : List Call) (e : Endpoint) : Prop where
  fresh : Call.init ∉ calls → e = {}
  keys : Call.init ∈ calls → SameKeys (install K master clientSide context) e.cipher
  counter : e.cipher.sendCounter = e.sent.length
  bound : e.sent.length ≤ UINT64_MAX
  sent : ∀ i m, e.sent[i]? = some m →
    m.frame = lockFrame K (install K master clientSide context).sendKey
      (install K master clientSide context).sendNonceSeed i m.ad m.plain
  tracks : Window.Tracks REPLAY_WINDOW e.cipher.toWindow e.accepted
  accepted : ∀ a ∈ e.accepted, ∃ frame ad plain, Call.decrypt frame ad ∈ calls ∧
    readU64BE frame = a ∧ (install K master clientSide context).Authentic K frame ad plain

variable {K master clientSide context}

/-- The clauses that do not speak of the call just made carry over to it. -/
theorem EndpointInv.extend {calls : List Call} {e : Endpoint} {x : Call}
    (h : EndpointInv K master clientSide context calls e) (hx : x ≠ Call.init) :
    EndpointInv K master clientSide context (calls ++ [x]) e where
  fresh hni := h.fresh fun hm => hni (List.mem_append_left _ hm)
  keys hi := h.keys (by
    rcases List.mem_append.mp hi with hm | hm
    · exact hm
    · exact absurd (List.mem_singleton.mp hm).symm hx)
  counter := h.counter
  bound := h.bound
  sent := h.sent
  tracks := h.tracks
  accepted a ha := by
    obtain ⟨frame, ad, plain, hmem, hctr, hauth⟩ := h.accepted a ha
    exact ⟨frame, ad, plain, List.mem_append_left _ hmem, hctr, hauth⟩

theorem call_init_inv {calls : List Call} {e : Endpoint}
    (h : EndpointInv K master clientSide context calls e) :
    EndpointInv K master clientSide context (calls ++ [.init])
      (call K master clientSide context e .init) := by
  unfold call
  have hlast : Call.init ∈ calls ++ [Call.init] := by simp
  rw [init_eq]
  by_cases hi : Call.init ∈ calls
  · have hinst := (install_installed K master clientSide context).of_sameKeys K (h.keys hi)
    rw [if_pos hinst]
    refine ⟨fun hni => absurd hlast hni, fun _ => h.keys hi, h.counter, h.bound, h.sent,
      h.tracks, ?_⟩
    intro a ha
    obtain ⟨frame, ad, plain, hmem, hctr, hauth⟩ := h.accepted a ha
    exact ⟨frame, ad, plain, List.mem_append_left _ hmem, hctr, hauth⟩
  · -- the first install: nothing was sent or accepted before it
    have he := h.fresh hi
    subst he
    have hnot : ¬ ({} : SecureFrameCipher).Installed K master clientSide context := by
      rintro ⟨hinit, _⟩
      cases hinit
    rw [if_neg hnot]
    exact ⟨fun hni => absurd hlast hni, fun _ => SameKeys.refl _, rfl, by simp, by simp,
      Window.tracks_nil _ rfl, by simp⟩

theorem call_encrypt_inv {calls : List Call} {e : Endpoint} (plain ad : Bytes)
    (h : EndpointInv K master clientSide context calls e) :
    EndpointInv K master clientSide context (calls ++ [.encrypt plain ad])
      (call K master clientSide context e (.encrypt plain ad)) := by
  have hext := h.extend (x := .encrypt plain ad) (by simp)
  unfold call
  dsimp only
  rcases e.cipher.encrypt_cases K plain ad with henc | ⟨hinit, hctr, henc⟩
  · rw [henc]
    simpa using hext
  · have hi : Call.init ∈ calls := by
      by_contra hni
      rw [h.fresh hni] at hinit
      cases hinit
    have hk := h.keys hi
    rw [henc]
    dsimp only
    rw [if_neg (lockFrame_ne_nil K _ _ _ _ _)]
    refine ⟨fun hni => absurd (List.mem_append_left _ hi) hni,
      fun _ => ⟨hk.1, hk.2, hk.3, hk.4, hk.5⟩,
      by simp [h.counter], ?_, ?_, hext.tracks, hext.accepted⟩
    · have := h.bound
      rw [h.counter] at hctr
      simp only [List.length_append, List.length_singleton]
      omega
    · intro i m hm
      rw [List.getElem?_append] at hm
      split at hm
      · exact h.sent i m hm
      · -- the new frame stands at the position of its counter
        rw [List.getElem?_singleton] at hm
        split at hm
        case isFalse => cases hm
        cases hm
        have : i = e.sent.length := by omega
        rw [this, hk.sendKey, hk.sendNonceSeed, h.counter]

theorem call_decrypt_inv {calls : List Call} {e : Endpoint} (frame ad : Bytes)
    (h : EndpointInv K master clientSide context calls e) :
    EndpointInv K master clientSide context (calls ++ [.decrypt frame ad])
      (call K master clientSide context e (.decrypt frame ad)) := by
  have hext := h.extend (x := .decrypt frame ad) (by simp)
  unfold call receive
  rcases e.cipher.decrypt_cases K frame ad with hd | ⟨plain, hd⟩
  · dsimp only
    rw [hd]
    exact hext
  · have hinit : e.cipher.initialized = true := initialized_of_decrypt K (by rw [hd])
    have hi : Call.init ∈ calls := by
      by_contra hni
      rw [h.fresh hni] at hinit
      cases hinit
    obtain ⟨hadm, hauth⟩ := (decrypt_eq_some_iff K hinit frame ad plain).mp (by rw [hd])
    obtain ⟨hsame, hsend⟩ := recordCounter_sameKeys e.cipher (readU64BE frame)
    have hk := h.keys hi
    dsimp only
    rw [hd]
    refine ⟨fun hni => absurd (List.mem_append_left _ hi) hni, fun _ => hk.trans hsame,
      hsend.trans h.counter, h.bound, h.sent, ?_, ?_⟩
    · exact Window.tracks_of_records (by decide) h.tracks hadm (recordCounter_records hadm)
    · intro a ha
      rcases List.mem_cons.mp ha with rfl | ha
      · exact ⟨frame, ad, plain, by simp, rfl, hauth.of_sameKeys K hk.symm⟩
      · exact hext.accepted a ha

theorem callAll_inv (calls : List Call) :
    EndpointInv K master clientSide context calls (callAll K master clientSide context calls) := by
  induction calls using List.reverseRecOn with
  | nil => exact ⟨fun _ => rfl, by simp, rfl, by simp [callAll], by simp [callAll],
      Window.tracks_nil _ rfl, by simp [callAll]⟩
  | append_singleton calls x ih =>
    have hstep : callAll K master clientSide context (calls ++ [x]) =
        call K master clientSide context (callAll K master clientSide context calls) x := by
      simp [callAll]
    rw [hstep]
    cases x with
    | init => exact call_init_inv ih
    | encrypt plain ad => exact call_encrypt_inv plain ad ih
    | decrypt frame ad => exact call_decrypt_inv frame ad ih

theorem EndpointInv.initialized {calls : List Call} {e : Endpoint}
    (h : EndpointInv K master clientSide context calls e) (hi : Call.init ∈ calls) :
    e.cipher.initialized = true := (h.keys hi).initialized

/-- The frame at position `i` carries the counter `i`. -/
theorem EndpointInv.sent_counters {calls : List Call} {e : Endpoint}
    (h : EndpointInv K master clientSide context calls e) :
    e.sent.map (fun m => readU64BE m.frame) = List.range e.sent.length := by
  refine List.ext_getElem (by simp) fun i hi _ => ?_
  have hlt : i < e.sent.length := by simpa using hi
  have hbound := h.bound
  rw [List.getElem_map, List.getElem_range, h.sent i _ (List.getElem?_eq_getElem hlt),
    readU64BE_lockFrame]
  unfold UINT64_MAX at hbound
  omega

/-- Two frames of one endpoint with the same counter are the same frame. -/
theorem EndpointInv.sent_inj {calls : List Call} {e : Endpoint}
    (h : EndpointInv K master clientSide context calls e) {m m' : SentFrame}
    (hm : m ∈ e.sent) (hm' : m' ∈ e.sent) (heq : readU64BE m.frame = readU64BE m'.frame) :
    m = m' := by
  have hnodup : (e.sent.map fun m => readU64BE m.frame).Nodup := by
    rw [h.sent_counters]
    exact List.nodup_range
  exact List.inj_on_of_nodup_map hnodup hm hm' heq

/-- The two roles derive the same key and nonce seed for each direction. -/
theorem install_opposite (K : Crypto) (master : Bytes) (clientSide : Bool) (context : String) :
    (install K master clientSide context).sendKey =
    (install K master (!clientSide) context).recvKey ∧
    (install K master clientSide context).sendNonceSeed =
      (install K master (!clientSide) context).recvNonceSeed := by
  cases clientSide <;> exact ⟨rfl, rfl⟩

/-- A frame of one endpoint is authentic for the endpoint of the opposite role. -/
theorem EndpointInv.sent_authentic {calls : List Call} {e : Endpoint}
    (h : EndpointInv K master clientSide context calls e) {m : SentFrame} (hm : m ∈ e.sent) :
    (install K master (!clientSide) context).Authentic K m.frame m.ad m.plain := by
  obtain ⟨i, hlt, rfl⟩ := List.mem_iff_getElem.mp hm
  obtain ⟨hkey, hseed⟩ := install_opposite K master clientSide context
  have hbound := h.bound
  refine ⟨i, ?_, ?_⟩
  · unfold UINT64_MAX at hbound
    omega
  · rw [← hkey, ← hseed]
    exact h.sent i _ (List.getElem?_eq_getElem hlt)

/-- **Counter discipline.**  For every sequence of calls on one cipher: the
    frames it returned carry the counters `0, 1, 2, …`; an `init` after the
    first changes nothing; `encrypt` before the first `init`, or at the last
    counter, returns an empty frame and changes nothing.  And for every
    sequence of calls on a cipher of the opposite role that was only given
    frames the first one returned or that are not authentic: such a frame that
    it is given for the first time, inside its window, decrypts to its text. -/
theorem counter_discipline (K : Crypto) (master : Bytes) (clientSide : Bool) (context : String)
    (calls : List Call) :
    let e := callAll K master clientSide context calls
    e.sent.map (fun m => readU64BE m.frame) = List.range e.sent.length ∧
    (Call.init ∈ calls → e.cipher.init K master clientSide context = e.cipher) ∧
    (Call.init ∉ calls ∨ e.cipher.sendCounter = 2 ^ 64 - 1 →
      ∀ plain ad, e.cipher.encrypt K plain ad = ([], e.cipher)) ∧
    (∀ peerCalls, Call.init ∈ peerCalls →
      let peer := callAll K master (!clientSide) context peerCalls
      (∀ frame ad, Call.decrypt frame ad ∈ peerCalls →
        (∃ plain, ⟨frame, plain, ad⟩ ∈ e.sent) ∨
        ∀ plain, ¬ peer.cipher.Authentic K frame ad plain) →
      ∀ m ∈ e.sent, Call.decrypt m.frame m.ad ∉ peerCalls →
        (peer.accepted = [] ∨ ∃ top, Window.IsLargest peer.accepted top ∧
          (top < readU64BE m.frame ∨ top - readU64BE m.frame < 2048)) →
        (peer.cipher.decrypt K m.frame m.ad).1 = some m.plain) := by
  intro e
  have h : EndpointInv K master clientSide context calls e := callAll_inv calls
  refine ⟨h.sent_counters, ?_, ?_, ?_⟩
  · intro hi
    rw [init_eq, if_pos ((install_installed K master clientSide context).of_sameKeys K (h.keys hi))]
  · rintro (hni | hlast) plain ad
    · rw [h.fresh hni]
      exact encrypt_refused K (Or.inl rfl) plain ad
    · exact encrypt_refused K (Or.inr hlast) plain ad
  · intro peerCalls hpi peer hideal m hm hfirst hwindow
    have hp : EndpointInv K master (!clientSide) context peerCalls peer := callAll_inv peerCalls
    have hauth := (h.sent_authentic hm).of_sameKeys K (hp.keys hpi)
    rw [decrypt_eq_some_iff K (hp.initialized hpi)]
    refine ⟨?_, hauth⟩
    have hnew : readU64BE m.frame ∉ peer.accepted := by
      -- an accepted frame with this counter was this frame
      intro hmem
      obtain ⟨frame, ad, plain, hcall, hctr, hgood⟩ := hp.accepted _ hmem
      rcases hideal frame ad hcall with ⟨plain', hsent⟩ | hforged
      · have : (⟨frame, plain', ad⟩ : SentFrame) = m := h.sent_inj hsent hm hctr
        subst this
        exact hfirst hcall
      · exact hforged plain (hgood.of_sameKeys K (hp.keys hpi))
    exact hp.tracks.admits hnew hwindow

theorem counter_discipline_delivered :
    let calls := [Call.init, .encrypt [1] [7], .init, .encrypt [2] [7]]
    let e := callAll Crypto.sample [3] true "signal" calls
    ∃ m ∈ e.sent, m.plain = [2] ∧
      ((callAll Crypto.sample [3] false "signal" [.init]).cipher.decrypt Crypto.sample
        m.frame m.ad).1 = some m.plain := by
  intro calls e
  have hm : ∃ m ∈ e.sent, m.plain = [2] := by decide
  obtain ⟨m, hm, hplain⟩ := hm
  refine ⟨m, hm, hplain, ?_⟩
  exact (counter_discipline Crypto.sample [3] true "signal" calls).2.2.2 [.init] (by simp)
    (by simp) m hm (by simp) (Or.inl rfl)

end SecureFrameCipher

end VlanConnect

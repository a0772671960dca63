/-
  VlanConnect/Server/RateLimit.lean
  =================================
  **The rate limits per address, and forgetting idle addresses.**

  The record of an address has four token buckets and one activity time.
  `cleanupIpStates` erases the record of an idle address, and with it what was
  left in the buckets.  Ten minutes are enough to fill each of the four, so a
  server that erases decides as four meters that never forget
  (`decisions_eq_ideal`), and the bound on a meter is a bound on the server.
-/
import VlanConnect.Server.Dispatch
import VlanConnect.Lib.Meter

namespace VlanConnect

/-! ### The rates -/

/-- What the calls of `takeIpToken` pass: 16 accepts, 32 failed logins, 4 new
    rooms and 32 wrong room passwords at once. -/
def IpBucket.burst : IpBucket → Rat
  | .accepts => 16
  | .authFailures => 32
  | .creates => 4
  | .roomPasswordFailures => 32

def IpBucket.refillSeconds : IpBucket → Rat
  | .accepts => 1
  | .authFailures => 1
  | .creates => 15
  | .roomPasswordFailures => 2

theorem IpBucket.burst_nonneg (k : IpBucket) : 0 ≤ k.burst := by
  cases k <;> norm_num [burst]

theorem IpBucket.refillSeconds_pos (k : IpBucket) : 0 < k.refillSeconds := by
  cases k <;> norm_num [refillSeconds]

/-- Ten minutes fill every bucket. -/
theorem IpBucket.burst_le (k : IpBucket) {seconds : Nat} (h : 600 ≤ seconds) :
    k.burst ≤ (seconds : Rat) / k.refillSeconds := by
  have hcast : (600 : Rat) ≤ seconds := by exact_mod_cast h
  rw [le_div_iff₀ k.refillSeconds_pos]
  refine le_trans ?_ hcast
  cases k <;> norm_num [burst, refillSeconds]

namespace Server

/-! ### What happens to an address -/

/-- An operation on the record of one address.  `other` stands for the events
    that count its connections; most of them stamp the activity time. -/
inductive LimitOp where
  | take (k : IpBucket)
  | sweep
  | other (clients pending : Nat) (stamps : Bool)
deriving DecidableEq

/-- The server when the clock reads `now`. -/
def setClock (s : Server) (now : Nat) : Server :=
  { s with clock := now, env := { s.env with ticks := [] } }

def record (s : Server) (ip : Nat) : IpState := (s.ipStates[ip]?).getD {}

variable (ip : Nat) (erases : Bool)

/-- One operation at time `now`, on a server that erases idle records or not. -/
def limit (s : Server) (now : Nat) : LimitOp → Server
  | .take k => ((s.setClock now).takeIpToken ip k k.burst k.refillSeconds).2
  | .sweep => if erases then (s.setClock now).cleanupIpStates now else s.setClock now
  | .other clients pending stamps =>
    let s := s.setClock now
    let state := s.record ip
    let lastActivity := if stamps then now else state.lastActivity
    { s with
      ipStates := s.ipStates.insert ip
        { state with clients := clients, pending := pending, lastActivity := lastActivity } }

def limitAll (s : Server) (ops : List (Nat × LimitOp)) : Server :=
  ops.foldl (fun s op => s.limit ip erases op.1 op.2) s

/-- The decisions of the calls of `takeIpToken`, with their times. -/
def decisions (s : Server) : List (Nat × LimitOp) → List (Nat × IpBucket × Bool)
  | [] => []
  | (now, .take k) :: ops =>
    (now, k, ((s.setClock now).takeIpToken ip k k.burst k.refillSeconds).1) ::
      decisions (s.limit ip erases now (.take k)) ops
  | (now, .sweep) :: ops => decisions (s.limit ip erases now .sweep) ops
  | (now, .other clients pending stamps) :: ops =>
    decisions (s.limit ip erases now (.other clients pending stamps)) ops

/-- The decisions of one meter for each bucket. -/
def ideal (meters : IpBucket → Meter Rat) : List (Nat × LimitOp) → List (Nat × IpBucket × Bool)
  | [] => []
  | (now, .take k) :: ops =>
    (now, k, ((meters k).take k.burst k.refillSeconds now).1) ::
      ideal (Function.update meters k ((meters k).take k.burst k.refillSeconds now).2) ops
  | (_, .sweep) :: ops | (_, .other _ _ _) :: ops => ideal meters ops

end Server

/-! ### One bucket -/

namespace TokenBucket

/-- The tokens that a call at time `t` finds. -/
def level (b : TokenBucket) (k : IpBucket) (t : Nat) : Rat :=
  if b.updated = 0 then k.burst else Meter.fill k.burst k.refillSeconds b.tokens (t - b.updated)

/-- The bucket as a call at time `now` finds it, filled up. -/
def refill (b : TokenBucket) (k : IpBucket) (now : Nat) : TokenBucket :=
  if b.updated = 0 then { tokens := k.burst, updated := now }
  else if b.updated < now then
    { tokens := min k.burst (b.tokens + ((now - b.updated : Nat) : Rat) / k.refillSeconds),
      updated := now }
  else b

/-- The bucket after a call at time `now`. -/
def draw (b : TokenBucket) (k : IpBucket) (now : Nat) : TokenBucket :=
  if 1 ≤ (b.refill k now).tokens then { b.refill k now with tokens := (b.refill k now).tokens - 1 }
    else b.refill k now

/-- The tokens are in range, and none was taken after `last`. -/
structure Sane (b : TokenBucket) (k : IpBucket) (last : Nat) : Prop where
  nonneg : 0 ≤ b.tokens
  le_burst : b.tokens ≤ k.burst
  updated : b.updated ≤ last

variable {b : TokenBucket} {k : IpBucket} {now : Nat}

theorem Sane.refill_eq {last : Nat} (h : b.Sane k last) (hle : last ≤ now) :
    b.refill k now = { tokens := b.level k now, updated := now } := by
  unfold refill level
  split
  · rfl
  · split
    · rfl
    · rename_i hnow
      have hsame : b.updated = now := Nat.le_antisymm (h.updated.trans hle) (Nat.le_of_not_lt hnow)
      rw [hsame, Nat.sub_self, Meter.fill_zero h.le_burst, ← hsame]

theorem Sane.level_nonneg {last : Nat} (h : b.Sane k last) (t : Nat) : 0 ≤ b.level k t := by
  unfold level
  split
  · exact k.burst_nonneg
  · exact Meter.fill_nonneg k.burst_nonneg k.refillSeconds_pos h.nonneg _

theorem level_le_burst (b : TokenBucket) (k : IpBucket) (t : Nat) : b.level k t ≤ k.burst := by
  unfold level
  split
  · exact le_refl _
  · exact Meter.fill_le_burst _ _

/-- A bucket that was idle for ten minutes is full. -/
theorem Sane.level_idle {last : Nat} (h : b.Sane k last) {t : Nat} (hidle : 600 ≤ t - last) :
    b.level k t = k.burst := by
  unfold level
  split
  · rfl
  · have hupdated := h.updated
    exact Meter.fill_full h.nonneg (k.burst_le (by omega))

theorem Sane.draw {last : Nat} (h : b.Sane k last) (hle : last ≤ now) :
    (b.draw k now).Sane k now := by
  unfold TokenBucket.draw
  rw [h.refill_eq hle]
  split
  · rename_i hone
    exact ⟨sub_nonneg.mpr hone, (sub_le_self _ zero_le_one).trans (level_le_burst b k now),
      le_refl _⟩
  · exact ⟨h.level_nonneg now, level_le_burst b k now, le_refl _⟩

theorem draw_eq {last : Nat} (h : b.Sane k last) (hle : last ≤ now) :
    b.draw k now =
    { tokens := if 1 ≤ b.level k now then b.level k now - 1 else b.level k now,
      updated := now } := by
  unfold TokenBucket.draw
  rw [h.refill_eq hle]
  split <;> rfl

theorem level_fresh (k : IpBucket) (t : Nat) : ({} : TokenBucket).level k t = k.burst := rfl

end TokenBucket

theorem IpState.bucket_setBucket_self (state : IpState) (b : TokenBucket) (k : IpBucket) :
    (state.setBucket b k).bucket k = b := by
  cases k <;> rfl

theorem IpState.bucket_setBucket_ne (state : IpState) (b : TokenBucket) {k k' : IpBucket}
    (h : k' ≠ k) :
    (state.setBucket b k).bucket k' = state.bucket k' := by
  cases k <;> cases k' <;> first | rfl | exact absurd rfl h

namespace Server

/-! ### The record of an address -/

variable {s : Server} {ip now : Nat} {erases : Bool}

theorem takeIpToken_fst (s : Server) (ip now : Nat) (k : IpBucket) :
    ((s.setClock now).takeIpToken ip k k.burst k.refillSeconds).1 =
      decide (1 ≤ (((s.record ip).bucket k).refill k now).tokens) := rfl

theorem record_take (s : Server) (ip now : Nat) (k : IpBucket) :
    (s.limit ip erases now (.take k)).record ip =
      { (s.record ip).setBucket (((s.record ip).bucket k).draw k now) k with
        lastActivity := now } := by
  have hinsert : (s.limit ip erases now (.take k)).ipStates = s.ipStates.insert ip
      { (s.record ip).setBucket (((s.record ip).bucket k).draw k now) k with
        lastActivity := now } := by
    simp only [limit, takeIpToken, TokenBucket.draw, decide_eq_true_eq]
    rfl
  rw [record, hinsert, Std.ExtTreeMap.getElem?_insert_self, Option.getD_some]

theorem record_other (s : Server) (ip now clients pending : Nat) (stamps : Bool) :
    (s.limit ip erases now (.other clients pending stamps)).record ip =
      { s.record ip with
        clients := clients, pending := pending,
        lastActivity := if stamps then now else (s.record ip).lastActivity } := by
  rw [record, limit, Std.ExtTreeMap.getElem?_insert_self, Option.getD_some]
  rfl

/-- A sweep keeps the record, or it forgets a record that was idle for ten
    minutes. -/
theorem record_sweep (s : Server) (ip now : Nat) :
    (s.limit ip erases now .sweep).record ip = s.record ip ∨
      (s.limit ip erases now .sweep).record ip = {} ∧ 600 ≤ now - (s.record ip).lastActivity := by
  cases erases with
  | false => exact .inl rfl
  | true =>
    change (((s.setClock now).cleanupIpStates now).record ip) = _ ∨
      (((s.setClock now).cleanupIpStates now).record ip) = _ ∧ _
    unfold record cleanupIpStates
    rw [Std.ExtTreeMap.getElem?_filter, Option.pfilter_eq_filter]
    change ((s.ipStates[ip]?).filter _).getD {} = _ ∨ ((s.ipStates[ip]?).filter _).getD {} = _ ∧ _
    cases hstate : s.ipStates[ip]? with
    | none => exact .inl rfl
    | some state =>
      by_cases hidle : state.clients = 0 ∧ state.pending = 0 ∧ 0 < state.lastActivity ∧
        600 ≤ now - state.lastActivity
      · refine .inr ⟨?_, hidle.2.2.2⟩
        simp [Option.filter, hidle]
      · refine .inl ?_
        simp only [Option.filter, hidle, decide_false, Bool.not_false, if_true]

/-! ### The server and the meters -/

/-- The record agrees with one meter for each bucket: a call at any later time
    finds the same tokens. -/
structure Metered (ip : Nat) (s : Server) (now : Nat) (meters : IpBucket → Meter Rat) : Prop where
  sane : ∀ k, ((s.record ip).bucket k).Sane k (s.record ip).lastActivity
  active : (s.record ip).lastActivity ≤ now
  time : ∀ k, (meters k).time ≤ now
  level : ∀ k t, now ≤ t →
    Meter.fill k.burst k.refillSeconds (meters k).level (t - (meters k).time) =
    ((s.record ip).bucket k).level k t

variable {meters : IpBucket → Meter Rat}

theorem Metered.init (h : s.ipStates[ip]? = none) : Metered ip s 0 fun k => ⟨k.burst, 0⟩ := by
  have hrecord : s.record ip = {} := by
    rw [record, h, Option.getD_none]
  constructor
  · intro k
    rw [hrecord]
    cases k <;> exact ⟨le_refl _, IpBucket.burst_nonneg _, le_refl _⟩
  · rw [hrecord]
  · intro k
    exact le_refl _
  · intro k t _
    have hfresh : ({} : IpState).bucket k = {} := by
      cases k <;> rfl
    rw [hrecord, hfresh, TokenBucket.level_fresh]
    exact min_eq_left (le_add_of_nonneg_right
      (div_nonneg (Nat.cast_nonneg _) k.refillSeconds_pos.le))

theorem Metered.later (h : Metered ip s now meters) {t : Nat} (ht : now ≤ t) :
    Metered ip s t meters where
  sane := h.sane
  active := h.active.trans ht
  time := fun k => (h.time k).trans ht
  level := fun k t' ht' => h.level k t' (ht.trans ht')

theorem Metered.decision (h : Metered ip s now meters) (k : IpBucket) :
    ((s.setClock now).takeIpToken ip k k.burst k.refillSeconds).1 =
    ((meters k).take k.burst k.refillSeconds now).1 := by
  rw [takeIpToken_fst, (h.sane k).refill_eq h.active, ← h.level k now (le_refl _)]
  unfold Meter.take
  dsimp only
  split
  · rename_i hone
    exact decide_eq_true hone
  · rename_i hnone
    exact decide_eq_false hnone

theorem Metered.take (h : Metered ip s now meters) (hnow : 0 < now) (k : IpBucket) :
    Metered ip (s.limit ip erases now (.take k)) now
      (Function.update meters k ((meters k).take k.burst k.refillSeconds now).2) := by
  have hbucket : ∀ k', ((s.limit ip erases now (.take k)).record ip).bucket k' =
      if k' = k then ((s.record ip).bucket k).draw k now else (s.record ip).bucket k' := by
    intro k'
    rw [record_take]
    split
    · rename_i hk
      rw [hk]
      exact IpState.bucket_setBucket_self (s.record ip) _ k
    · rename_i hk
      exact IpState.bucket_setBucket_ne (s.record ip) _ hk
  have hactivity : ((s.limit ip erases now (.take k)).record ip).lastActivity = now := by
    rw [record_take]
  constructor
  · intro k'
    rw [hbucket, hactivity]
    split
    · rename_i hk
      rw [hk]
      exact (h.sane k).draw h.active
    · have hsane := h.sane k'
      exact ⟨hsane.nonneg, hsane.le_burst, hsane.updated.trans h.active⟩
  · exact hactivity.le
  · intro k'
    rcases eq_or_ne k' k with rfl | hk
    · rw [Function.update_self, Meter.take_snd_time]
    · rw [Function.update_of_ne hk]
      exact h.time k'
  · intro k' t ht
    rw [hbucket]
    rcases eq_or_ne k' k with rfl | hk
    · rw [Function.update_self, Meter.take_snd_time, if_pos rfl,
        TokenBucket.draw_eq (h.sane k') h.active, TokenBucket.level, if_neg hnow.ne',
        ← h.level k' now (le_refl _)]
      unfold Meter.take
      dsimp only
      split <;> rfl
    · rw [Function.update_of_ne hk, if_neg hk]
      exact h.level k' t ht

theorem Metered.other (h : Metered ip s now meters) (clients pending : Nat) (stamps : Bool) :
    Metered ip (s.limit ip erases now (.other clients pending stamps)) now meters := by
  have hbucket : ∀ k, ((s.limit ip erases now (.other clients pending stamps)).record ip).bucket k =
      (s.record ip).bucket k := by
    intro k
    rw [record_other]
    cases k <;> rfl
  have hactivity : (s.record ip).lastActivity ≤
        ((s.limit ip erases now (.other clients pending stamps)).record ip).lastActivity ∧
      ((s.limit ip erases now (.other clients pending stamps)).record ip).lastActivity ≤ now := by
    rw [record_other]
    dsimp only
    split
    · exact ⟨h.active, le_refl _⟩
    · exact ⟨le_refl _, h.active⟩
  constructor
  · intro k
    have hsane := h.sane k
    rw [hbucket]
    exact ⟨hsane.nonneg, hsane.le_burst, hsane.updated.trans hactivity.1⟩
  · exact hactivity.2
  · exact h.time
  · intro k t ht
    rw [hbucket]
    exact h.level k t ht

/-- What a sweep forgets is four full buckets. -/
theorem Metered.sweep (h : Metered ip s now meters) :
    Metered ip (s.limit ip erases now .sweep) now meters := by
  rcases record_sweep s ip now with hkept | ⟨hforgotten, hidle⟩
  · constructor
    · rw [hkept]
      exact h.sane
    · rw [hkept]
      exact h.active
    · exact h.time
    · rw [hkept]
      exact h.level
  · have hfresh : ∀ k, ((s.limit ip erases now .sweep).record ip).bucket k = {} := by
      intro k
      rw [hforgotten]
      cases k <;> rfl
    constructor
    · intro k
      rw [hfresh]
      exact ⟨le_refl _, k.burst_nonneg, Nat.zero_le _⟩
    · rw [hforgotten]
      exact Nat.zero_le _
    · exact h.time
    · intro k t ht
      rw [hfresh, h.level k t ht, TokenBucket.level_fresh]
      exact (h.sane k).level_idle (by omega)

/-- The operations are in order, from `now` on. -/
def InOrder (now : Nat) (ops : List (Nat × LimitOp)) : Prop :=
  (∀ op ∈ ops, 0 < op.1 ∧ now ≤ op.1) ∧ ops.Pairwise (·.1 ≤ ·.1)

theorem InOrder.tail {t : Nat} {op : LimitOp} {ops : List (Nat × LimitOp)}
    (h : InOrder now ((t, op) :: ops)) :
    0 < t ∧ now ≤ t ∧ InOrder t ops := by
  obtain ⟨hfirst, hpairs⟩ := h
  obtain ⟨hhead, htail⟩ := List.pairwise_cons.mp hpairs
  have ht := hfirst (t, op) List.mem_cons_self
  exact ⟨ht.1, ht.2, fun op' hop' => ⟨(hfirst op' (List.mem_cons_of_mem _ hop')).1, hhead op' hop'⟩,
    htail⟩

/-- The server decides as the meters do. -/
theorem Metered.decisions_eq (h : Metered ip s now meters) {ops : List (Nat × LimitOp)}
    (hops : InOrder now ops) :
    s.decisions ip erases ops = ideal meters ops := by
  induction ops generalizing s now meters with
  | nil => rfl
  | cons op ops ih =>
    obtain ⟨t, op⟩ := op
    obtain ⟨hpos, hle, hrest⟩ := hops.tail
    have hlater := h.later hle
    cases op with
    | take k => rw [Server.decisions, ideal, hlater.decision k, ih (hlater.take hpos k) hrest]
    | sweep => rw [Server.decisions, ideal, ih hlater.sweep hrest]
    | other clients pending stamps =>
      rw [Server.decisions, ideal, ih (hlater.other clients pending stamps) hrest]

/-- The tokens stay in range. -/
theorem Metered.sane_limitAll (h : Metered ip s now meters) {ops : List (Nat × LimitOp)}
    (hops : InOrder now ops) (k : IpBucket) :
    (((s.limitAll ip erases ops).record ip).bucket k).Sane k
    ((s.limitAll ip erases ops).record ip).lastActivity := by
  induction ops generalizing s now meters with
  | nil => exact h.sane k
  | cons op ops ih =>
    obtain ⟨t, op⟩ := op
    obtain ⟨hpos, hle, hrest⟩ := hops.tail
    have hlater := h.later hle
    cases op with
    | take k' => exact ih (hlater.take hpos k') hrest
    | sweep => exact ih hlater.sweep hrest
    | other clients pending stamps => exact ih (hlater.other clients pending stamps) hrest

/-! ### The bound -/

/-- The tokens that bucket `k` grants from `t₁` to `t₂`. -/
def grants (k : IpBucket) (t₁ t₂ : Nat) (decided : List (Nat × IpBucket × Bool)) : Nat :=
  decided.countP fun d => decide (d.2.1 = k ∧ d.2.2 = true ∧ t₁ ≤ d.1 ∧ d.1 ≤ t₂)

/-- The times of the calls for bucket `k`. -/
def takes (k : IpBucket) (ops : List (Nat × LimitOp)) : List Nat :=
  (ops.filter (·.2 = .take k)).map Prod.fst

theorem grants_ideal (k : IpBucket) (t₁ t₂ : Nat) (meters : IpBucket → Meter Rat)
    (ops : List (Nat × LimitOp)) :
    grants k t₁ t₂ (ideal meters ops) =
      Meter.granted k.burst k.refillSeconds t₁ t₂ (meters k) (takes k ops) := by
  induction ops generalizing meters with
  | nil => rfl
  | cons op ops ih =>
    obtain ⟨t, op⟩ := op
    cases op with
    | take k' =>
      have hrest := ih (Function.update meters k' ((meters k').take k'.burst k'.refillSeconds t).2)
      rw [ideal, grants, List.countP_cons, ← grants, hrest]
      rcases eq_or_ne k' k with rfl | hk
      · have htakes : takes k' ((t, .take k') :: ops) = t :: takes k' ops := by
          simp [takes]
        rw [htakes, Meter.granted, Function.update_self, Nat.add_comm]
        simp
      · have htakes : takes k ((t, .take k') :: ops) = takes k ops := by
          simp [takes, hk]
        rw [htakes, Function.update_of_ne hk.symm]
        simp [hk]
    | sweep =>
      rw [ideal, ih meters]
      simp [takes]
    | other clients pending stamps =>
      rw [ideal, ih meters]
      simp [takes]

theorem takes_inOrder {ops : List (Nat × LimitOp)} (h : InOrder now ops) (k : IpBucket) :
    (takes k ops).Pairwise (· ≤ ·) := by
  unfold takes
  rw [List.pairwise_map]
  exact h.2.filter _

/-- **The rate limits.**  For an address the server does not know yet, and any
    calls of `takeIpToken` and `cleanupIpStates` for it, in order: the decisions
    are those of a server that never erases; each bucket grants at most its
    burst and one token for each refill time in between; and its tokens stay
    within the burst. -/
theorem rate_limiting (s : Server) (ip : Nat) (hnew : s.ipStates[ip]? = none)
    (ops : List (Nat × LimitOp)) (hpos : ∀ op ∈ ops, 0 < op.1) (hmono : ops.Pairwise (·.1 ≤ ·.1)) :
    s.decisions ip true ops = s.decisions ip false ops ∧
      ∀ k : IpBucket,
        (∀ t₁ t₂, (grants k t₁ t₂ (s.decisions ip true ops) : Rat) ≤
          k.burst + ((t₂ - t₁ : Nat) : Rat) / k.refillSeconds) ∧
        ∀ state, (s.limitAll ip true ops).ipStates[ip]? = some state →
          0 ≤ (state.bucket k).tokens ∧ (state.bucket k).tokens ≤ k.burst := by
  have hinit := Metered.init hnew
  have horder : InOrder 0 ops := ⟨fun op hop => ⟨hpos op hop, Nat.zero_le _⟩, hmono⟩
  constructor
  · rw [hinit.decisions_eq horder, hinit.decisions_eq horder]
  · intro k
    constructor
    · intro t₁ t₂
      rw [hinit.decisions_eq horder, grants_ideal]
      exact Meter.granted_le k.burst_nonneg k.refillSeconds_pos k.burst_nonneg
        (takes_inOrder horder k)
        (fun _ _ => Nat.zero_le _) t₁ t₂
    · intro state hstate
      have hsane : TokenBucket.Sane _ k ((s.limitAll ip true ops).record ip).lastActivity :=
        hinit.sane_limitAll horder k
      rw [record, hstate, Option.getD_some] at hsane
      exact ⟨hsane.nonneg, hsane.le_burst⟩

/-- Five new rooms at once, with a sweep ten minutes after them: the fifth is
    refused, and the sixth is not. -/
def fiveRooms : List (Nat × LimitOp) :=
  [(1, .take .creates), (1, .take .creates), (1, .take .creates), (1, .take .creates),
    (1, .take .creates),
    (601, .sweep), (602, .take .creates)]

theorem rate_limiting_fiveRooms :
    (∀ op ∈ fiveRooms, 0 < op.1) ∧ fiveRooms.Pairwise (·.1 ≤ ·.1) ∧
      ideal (fun k => ⟨k.burst, 0⟩) fiveRooms =
        [(1, .creates, true), (1, .creates, true), (1, .creates, true), (1, .creates, true),
          (1, .creates, false),
          (602, .creates, true)] ∧
      ({ serverAuthHash := [], serverAuthSalt := [] } : Server).decisions 7 true fiveRooms =
        ({ serverAuthHash := [], serverAuthSalt := [] } : Server).decisions 7 false fiveRooms :=
  ⟨by decide, by decide, by decide +kernel,
    (rate_limiting { serverAuthHash := [], serverAuthSalt := [] } 7
      Std.ExtTreeMap.getElem?_empty fiveRooms
      (by decide) (by decide)).1⟩

end Server

end VlanConnect

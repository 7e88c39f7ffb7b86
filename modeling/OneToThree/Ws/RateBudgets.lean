import Mathlib.Algebra.Order.BigOperators.Group.Finset
import OneToThree.Ws.RateTier

/-!
# What the rate tiers promise

* The higher tier cannot be had by one's own doing: a connection that the server has not put in
  a call holds it for three times half a minute at most (`elevated_bounded`).
* Within the budgets of the three classes of frames, what is refused is exactly what finds the
  bucket of calls full for its class: signaling shares that bucket with the relay frames, which
  are four times as many (`none_rejected_iff`).
-/

namespace OneToThree.Ws.RateTier

variable {N : Type}

/-! ## The grant -/

def Event.marksInCall : Event N → Bool
  | .markInCall _ => true
  | _ => false

def Event.grants : Event N → Bool
  | .markInCall _ | .markCallBootstrap => true
  | _ => false

/-- The milliseconds in which the connection was in a call, while some events happened. -/
def inCallTimes (c : Connection N) : List (Event N) → Finset ℕ
  | [] => (Finset.Icc c.now c.now).filter fun t => c.grant.isInCall t = true
  | e :: events =>
    ((Finset.Icc c.now (c.step e).now).filter fun t => c.grant.isInCall t = true) ∪
      inCallTimes (c.step e) events

/-- A grant that no call has confirmed, with the times of the rings that it was got by. -/
structure Bootstraps (g : CallTierGrant) (rings : List ℕ) : Prop where
  inCall : g.inCallUntil = 0
  count : rings.length = g.bootstrapGrants
  few : g.bootstrapGrants ≤ MAX_BOOTSTRAP_GRANTS
  deadline : g.bootstrapUntil = 0 ∨
    ∃ ring ∈ rings, g.bootstrapUntil = ring + IN_CALL_BOOTSTRAP_MS

theorem bootstraps_create : Bootstraps .create [] := ⟨rfl, rfl, Nat.zero_le _, .inl rfl⟩

variable {g : CallTierGrant} {rings : List ℕ}

theorem Bootstraps.isInCall (h : Bootstraps g rings) {now : ℕ} (hnow : g.isInCall now = true) :
    ∃ ring ∈ rings, now < ring + IN_CALL_BOOTSTRAP_MS := by
  rw [CallTierGrant.isInCall, Bool.or_eq_true, decide_eq_true_eq, decide_eq_true_eq,
    h.inCall] at hnow
  have hlt := hnow.resolve_left (Nat.not_lt_zero _)
  rcases h.deadline with hzero | ⟨ring, hring, hdeadline⟩
  · rw [hzero] at hlt
    exact absurd hlt (Nat.not_lt_zero _)
  · exact ⟨ring, hring, hdeadline ▸ hlt⟩

theorem Bootstraps.refreshInCall (h : Bootstraps g rings) (now later : ℕ) :
    g.refreshInCall now later = g := by
  rw [CallTierGrant.refreshInCall, h.inCall, if_neg (Nat.not_lt_zero _)]

theorem Bootstraps.markCallBootstrap (h : Bootstraps g rings) (now : ℕ) :
    Bootstraps (g.markCallBootstrap now) rings ∨
      Bootstraps (g.markCallBootstrap now) (now :: rings) := by
  rw [CallTierGrant.markCallBootstrap]
  split_ifs with hfull hlater
  · exact .inl h
  · exact .inr ⟨h.inCall, by rw [List.length_cons, h.count], Nat.lt_of_not_le hfull,
      .inr ⟨now, List.mem_cons_self, rfl⟩⟩
  · refine .inr ⟨h.inCall, by rw [List.length_cons, h.count], Nat.lt_of_not_le hfull, ?_⟩
    exact h.deadline.imp_right fun ⟨ring, hring, heq⟩ => ⟨ring, List.mem_cons_of_mem _ hring, heq⟩

theorem Bootstraps.clearInCall (h : Bootstraps g rings) : Bootstraps g.clearInCall rings :=
  ⟨rfl, h.count, h.few, .inl rfl⟩

/-- The rings of a connection, all of them made by now. -/
structure Rings (c : Connection N) (rings : List ℕ) : Prop where
  grant : Bootstraps c.grant rings
  past : ∀ ring ∈ rings, ring ≤ c.now

theorem now_le_step (c : Connection N) (e : Event N) : c.now ≤ (c.step e).now := by
  cases e with
  | frame | refreshInCall | elapse => exact Nat.le_add_right _ _
  | _ => exact Nat.le_refl _

theorem Rings.step {c : Connection N} (h : Rings c rings) {e : Event N}
    (he : e.marksInCall = false) :
    ∃ rings', Rings (c.step e) rings' ∧ rings ⊆ rings' := by
  have hpast : ∀ ring ∈ rings, ring ≤ (c.step e).now := fun ring hring =>
    (h.past ring hring).trans (now_le_step c e)
  cases e with
  | markInCall ttlMs => cases he
  | frame | elapse => exact ⟨rings, ⟨h.grant, hpast⟩, fun _ hring => hring⟩
  | clearInCall => exact ⟨rings, ⟨h.grant.clearInCall, hpast⟩, fun _ hring => hring⟩
  | refreshInCall ms =>
    refine ⟨rings, ⟨?_, hpast⟩, fun _ hring => hring⟩
    rw [Connection.step, h.grant.refreshInCall]
    exact h.grant
  | markCallBootstrap =>
    rcases h.grant.markCallBootstrap c.now with hsame | hring
    · exact ⟨rings, ⟨hsame, hpast⟩, fun _ hring => hring⟩
    · refine ⟨c.now :: rings, ⟨hring, fun ring hmem => ?_⟩, List.subset_cons_self _ _⟩
      rcases List.mem_cons.1 hmem with rfl | hmem
      · exact Nat.le_refl _
      · exact hpast ring hmem

/-- A millisecond in a call follows a ring, within half a minute. -/
theorem Rings.of_isInCall {c : Connection N} (h : Rings c rings) {later t : ℕ}
    (ht : t ∈ (Finset.Icc c.now later).filter fun t => c.grant.isInCall t = true) :
    ∃ ring ∈ rings, ring ≤ t ∧ t < ring + IN_CALL_BOOTSTRAP_MS := by
  obtain ⟨hIcc, hin⟩ := Finset.mem_filter.1 ht
  obtain ⟨ring, hring, hlt⟩ := h.grant.isInCall hin
  exact ⟨ring, hring, (h.past ring hring).trans (Finset.mem_Icc.1 hIcc).1, hlt⟩

theorem Rings.inCallTimes {c : Connection N} (h : Rings c rings) {events : List (Event N)}
    (hno : ∀ e ∈ events, e.marksInCall = false) : ∃ rings', Rings (c.run events) rings' ∧
      rings ⊆ rings' ∧ ∀ t ∈ inCallTimes c events,
        ∃ ring ∈ rings', ring ≤ t ∧ t < ring + IN_CALL_BOOTSTRAP_MS := by
  induction events generalizing c rings with
  | nil => exact ⟨rings, h, fun _ hring => hring, fun t ht => h.of_isInCall ht⟩
  | cons e events ih =>
    obtain ⟨rings₁, h₁, hsub₁⟩ := h.step (hno e List.mem_cons_self)
    obtain ⟨rings₂, h₂, hsub₂, htimes⟩ := ih h₁ fun e' he' => hno e' (List.mem_cons_of_mem _ he')
    refine ⟨rings₂, h₂, fun _ hring => hsub₂ (hsub₁ hring), fun t ht => ?_⟩
    rcases Finset.mem_union.1 ht with ht | ht
    · obtain ⟨ring, hring, hle⟩ := h.of_isInCall ht
      exact ⟨ring, hsub₂ (hsub₁ hring), hle⟩
    · exact htimes t ht

/-- Half a minute for each ring. -/
theorem card_le_of_rings {times : Finset ℕ}
    (h : ∀ t ∈ times, ∃ ring ∈ rings, ring ≤ t ∧ t < ring + IN_CALL_BOOTSTRAP_MS) :
    times.card ≤ rings.length * IN_CALL_BOOTSTRAP_MS := by
  have hsub : times ⊆ rings.toFinset.biUnion fun ring =>
      Finset.Ico ring (ring + IN_CALL_BOOTSTRAP_MS) := by
    intro t ht
    obtain ⟨ring, hring, hIco⟩ := h t ht
    exact Finset.mem_biUnion.2 ⟨ring, List.mem_toFinset.2 hring, Finset.mem_Ico.2 hIco⟩
  have hcard := Finset.card_biUnion_le_card_mul rings.toFinset
    (fun ring => Finset.Ico ring (ring + IN_CALL_BOOTSTRAP_MS)) IN_CALL_BOOTSTRAP_MS
    fun ring _ => by rw [Nat.card_Ico, Nat.add_sub_cancel_left]
  exact (Finset.card_le_card hsub).trans
    (hcard.trans (Nat.mul_le_mul_right _ (List.toFinset_card_le rings)))

theorem rings_open (n : ℕ) : Rings (Connection.open N n) [] :=
  ⟨bootstraps_create, fun _ h => absurd h List.not_mem_nil⟩

/-- After the grant was cleared, and until a new one, there is none. -/
theorem inCall_of_cleared {c : Connection N} (hin : c.grant.inCallUntil = 0)
    (hboot : c.grant.bootstrapUntil = 0) {events : List (Event N)}
    (hno : ∀ e ∈ events, e.grants = false) :
    (c.run events).grant.inCallUntil = 0 ∧ (c.run events).grant.bootstrapUntil = 0 := by
  induction events generalizing c with
  | nil => exact ⟨hin, hboot⟩
  | cons e events ih =>
    have hstep : (c.step e).grant.inCallUntil = 0 ∧ (c.step e).grant.bootstrapUntil = 0 := by
      have he := hno e List.mem_cons_self
      cases e with
      | markInCall ttlMs => cases he
      | markCallBootstrap => cases he
      | frame | elapse => exact ⟨hin, hboot⟩
      | clearInCall => exact ⟨rfl, rfl⟩
      | refreshInCall ms =>
        rw [Connection.step, CallTierGrant.refreshInCall, hin, if_neg (Nat.not_lt_zero _)]
        exact ⟨hin, hboot⟩
    exact ih hstep.1 hstep.2 fun e' he' => hno e' (List.mem_cons_of_mem _ he')

/-- **The higher tier cannot be granted by oneself.** No bucket accepts more than its limit in a
    minute; without a call that the server has confirmed, a connection is in a call for as long
    as three rings last at most, and a renewal changes nothing; and once the grant is cleared,
    every frame is charged to the control bucket, until there is a new one. -/
theorem elevated_bounded (n : ℕ) (events : List (Event N)) :
    (∀ t, countAt t (accepted .control ((Connection.open N n).run events).frames) ≤ 60 ∧
      countAt t (accepted .call ((Connection.open N n).run events).frames) ≤ 2400) ∧
    ((∀ e ∈ events, e.marksInCall = false) →
      (inCallTimes (Connection.open N n) events).card ≤
        MAX_BOOTSTRAP_GRANTS * IN_CALL_BOOTSTRAP_MS ∧
      ∀ now later, ((Connection.open N n).run events).grant.refreshInCall now later =
        ((Connection.open N n).run events).grant) ∧
    (∀ before after, events = before ++ .clearInCall :: after →
      (∀ e ∈ after, e.grants = false) →
        ∀ now (json : Option (Json N)),
          ((Connection.open N n).run events).grant.isInCall now = false ∧
          tierOf json (((Connection.open N n).run events).grant.isInCall now) = controlTier) := by
  refine ⟨fun t => ⟨(kept_run n events).control t, (kept_run n events).call t⟩, fun hno => ?_, ?_⟩
  · obtain ⟨rings, hrings, -, htimes⟩ := (rings_open (N := N) n).inCallTimes hno
    refine ⟨(card_le_of_rings htimes).trans (Nat.mul_le_mul_right _ ?_),
      fun now later => hrings.grant.refreshInCall now later⟩
    rw [hrings.grant.count]
    exact hrings.grant.few
  · rintro before after rfl hno now json
    have hcleared := inCall_of_cleared (c := ((Connection.open N n).run before).step .clearInCall)
      rfl rfl hno
    have hrun : (Connection.open N n).run (before ++ .clearInCall :: after) =
        (((Connection.open N n).run before).step .clearInCall).run after := by
      rw [Connection.run, List.foldl_append, List.foldl_cons]
      rfl
    have hout : ((Connection.open N n).run (before ++ .clearInCall :: after)).grant.isInCall now =
        false := by
      rw [hrun, CallTierGrant.isInCall, hcleared.1, hcleared.2]
      rfl
    refine ⟨hout, ?_⟩
    rw [hout]
    exact (tierOf_cases json false).resolve_right fun h => Bool.false_ne_true h.1

/-! ## The budgets -/

/-- The tier that a frame claims, and has while in a call. -/
def Frame.claimed (f : Frame N) : WsRateTier := tierOf f.json true

def signalingTier : WsRateTier := ⟨.call, WS_RATE_LIMIT_SIGNALING_MAX⟩

def relayTier : WsRateTier := ⟨.call, WS_RATE_LIMIT_RELAY_MAX⟩

/-- The frames of a class, by the tier that they claim. -/
def ofClass (tier : WsRateTier) (frames : List (Frame N)) : List (Frame N) :=
  frames.filter fun f => f.claimed = tier

/-- The frames of calls. -/
def callFrames (frames : List (Frame N)) : List (Frame N) :=
  frames.filter fun f => f.claimed.bucket = .call

/-- Frames within the budgets of their classes, those of calls sent in a call only. -/
structure Budgets (frames : List (Frame N)) : Prop where
  control : ∀ t, countAt t (ofClass controlTier frames) ≤ 60
  signaling : ∀ t, countAt t (ofClass signalingTier frames) ≤ 600
  relay : ∀ t, countAt t (ofClass relayTier frames) ≤ 2400
  inCall : ∀ f ∈ frames, f.claimed ≠ controlTier → f.inCall = true

/-- A frame has the tier that it claims, if it claims that of calls in a call only. -/
theorem Frame.tier_eq_claimed {f : Frame N} (h : f.claimed ≠ controlTier → f.inCall = true) :
    f.tier = f.claimed := by
  obtain ⟨json, inCall, time, acc⟩ := f
  cases inCall with
  | true => rfl
  | false =>
    have hclaimed : (⟨json, false, time, acc⟩ : Frame N).claimed = controlTier := by
      by_contra hne
      cases h hne
    rw [hclaimed]
    exact (tierOf_cases json false).resolve_right fun hin => Bool.false_ne_true hin.1

theorem Frame.claimed_cases (f : Frame N) :
    f.claimed = controlTier ∨ f.claimed = relayTier ∨ f.claimed = signalingTier := by
  rcases tierOf_cases f.json true with h | ⟨-, h⟩
  · exact .inl h
  · exact .inr h

/-- Where all frames were accepted, those of a bucket are those that claim it. -/
theorem accepted_eq {frames : List (Frame N)} (hacc : ∀ f ∈ frames, f.accepted = true)
    (htier : ∀ f ∈ frames, f.tier = f.claimed) (b : WsRateBucket) :
    accepted b frames = frames.filter fun f => f.claimed.bucket = b := by
  refine List.filter_congr fun f hf => ?_
  rw [hacc f hf, Bool.and_true, htier f hf]

/-- The frames that claim the control bucket are those of the control class. -/
theorem filter_control (frames : List (Frame N)) :
    (frames.filter fun f => f.claimed.bucket = .control) = ofClass controlTier frames := by
  refine List.filter_congr fun f _ => ?_
  rcases f.claimed_cases with h | h | h <;> rw [h] <;> rfl

theorem countAt_self (f : Frame N) : countAt f.time [f] = 1 := by
  have hin : inWindow f.time f.time = true := decide_eq_true (Nat.lt_add_of_pos_right (by decide))
  rw [countAt_singleton, if_pos ⟨Nat.le_refl _, hin⟩]

/-- Within their budget, the control frames before a control frame are fewer. -/
theorem Budgets.control_lt {before after : List (Frame N)} {f : Frame N}
    (h : Budgets (before ++ f :: after)) (hf : f.claimed = controlTier) :
    countAt f.time (ofClass controlTier before) < 60 := by
  have hbudget := h.control f.time
  rw [← List.singleton_append, ofClass, List.filter_append, List.filter_append,
    countAt_append, countAt_append, List.filter_singleton] at hbudget
  rw [decide_eq_true hf, cond_true, countAt_self] at hbudget
  rw [ofClass]
  omega

/-- **Budgets and rejections.** Of frames within the budgets of the three classes none is
    rejected, exactly if each frame of a call finds fewer frames of calls in the minute before
    it, signaling and relay frames alike, than the limit of its own class. -/
theorem none_rejected_iff {n : ℕ} {events : List (Event N)}
    (h : Budgets ((Connection.open N n).run events).frames) :
    (∀ f ∈ ((Connection.open N n).run events).frames, f.accepted = true) ↔
      ∀ before f after, ((Connection.open N n).run events).frames = before ++ f :: after →
        f.claimed ≠ controlTier → countAt f.time (callFrames before) < f.claimed.limit := by
  have hjudged := (kept_run n events).judged
  generalize ((Connection.open N n).run events).frames = frames at h hjudged ⊢
  have htier : ∀ f ∈ frames, f.tier = f.claimed := fun f hf =>
    Frame.tier_eq_claimed (h.inCall f hf)
  -- What a frame is judged by, where all frames before it were accepted.
  have hjudge : ∀ before f after, frames = before ++ f :: after →
      (∀ g ∈ before, g.accepted = true) → (f.accepted = true ↔
        countAt f.time (before.filter fun g => g.claimed.bucket = f.claimed.bucket) <
          f.claimed.limit) := by
    rintro before f after rfl hbefore
    rw [hjudged before f after rfl, htier f (List.mem_append_right _ List.mem_cons_self),
      accepted_eq hbefore fun g hg => htier g (List.mem_append_left _ hg)]
  constructor
  · rintro hacc before f after rfl hcall
    have hlt := (hjudge before f after rfl fun g hg => hacc g (List.mem_append_left _ hg)).1
      (hacc f (List.mem_append_right _ List.mem_cons_self))
    have hbucket : f.claimed.bucket = .call := by
      rcases f.claimed_cases with hf | hf | hf
      · exact absurd hf hcall
      · rw [hf]; rfl
      · rw [hf]; rfl
    rwa [hbucket] at hlt
  · intro hroom
    have hall : ∀ before after, frames = before ++ after → ∀ f ∈ before, f.accepted = true := by
      intro before
      induction before using List.reverseRecOn with
      | nil => exact fun _ _ f hf => absurd hf List.not_mem_nil
      | append_singleton before f ih =>
        intro after heq g hg
        rw [List.append_assoc, List.singleton_append] at heq
        have hbefore := ih _ heq
        rcases List.mem_append.1 hg with hg | hg
        · exact hbefore g hg
        · rw [List.mem_singleton.1 hg, hjudge before f after heq hbefore]
          by_cases hcontrol : f.claimed = controlTier
          · subst heq
            have hlt := h.control_lt hcontrol
            rw [← filter_control] at hlt
            rw [hcontrol]
            exact hlt
          · have hlt := hroom before f after heq hcontrol
            have hbucket : f.claimed.bucket = .call := by
              rcases f.claimed_cases with hf | hf | hf
              · exact absurd hf hcontrol
              · rw [hf]; rfl
              · rw [hf]; rfl
            rwa [hbucket]
    exact hall frames [] (List.append_nil _).symm

namespace Sample

def relayJson : Option (Json ℕ) := some (.obj [("type", .str "group_call:relay_frame")])

def offerJson : Option (Json ℕ) := some (.obj [("type", .str "group_call:offer")])

def pingJson : Option (Json ℕ) := some (.obj [("type", .str "presence_ping")])

/-- A connection that the server has put in a call, with a relay frame, an offer and a ping. -/
def talk : List (Event ℕ) :=
  [.markInCall IN_CALL_TTL_MS, .frame relayJson 0, .frame offerJson 1, .frame pingJson 0]

/-- In a call, so many relay frames at once. -/
def relayed (k : ℕ) : List (Event ℕ) :=
  .markInCall IN_CALL_TTL_MS :: List.replicate k (.frame relayJson 0)

def relayFrame : Frame ℕ := ⟨relayJson, true, 0, true⟩

def offerFrame : Frame ℕ := ⟨offerJson, true, 0, false⟩

end Sample

theorem budgets_talk : Budgets ((Connection.open ℕ 0).run Sample.talk).frames := by
  have hlength : ((Connection.open ℕ 0).run Sample.talk).frames.length = 3 := rfl
  have hfew : ∀ tier t,
      countAt t (ofClass tier ((Connection.open ℕ 0).run Sample.talk).frames) ≤ 3 := by
    intro tier t
    refine (List.length_filter_le _ _).trans ((List.length_filter_le _ _).trans ?_)
    exact Nat.le_of_eq hlength
  exact ⟨fun t => (hfew _ t).trans (by decide), fun t => (hfew _ t).trans (by decide),
    fun t => (hfew _ t).trans (by decide), by decide⟩

theorem none_rejected_iff_talk :
    (∀ f ∈ ((Connection.open ℕ 0).run Sample.talk).frames, f.accepted = true) ∧
      ∀ before f after, ((Connection.open ℕ 0).run Sample.talk).frames = before ++ f :: after →
        f.claimed ≠ controlTier → countAt f.time (callFrames before) < f.claimed.limit := by
  have hall : ∀ f ∈ ((Connection.open ℕ 0).run Sample.talk).frames, f.accepted = true := by decide
  exact ⟨hall, (none_rejected_iff budgets_talk).1 hall⟩

/-- A frame of a call, in a call, is judged by the window of calls. -/
theorem judge_relay {c : Connection ℕ} {k : ℕ}
    (hwindow : c.limiter.windows .call = List.replicate k 0)
   
    (hgrant : c.grant.isInCall c.now = true) (hnow : c.now = 0) {json : Option (Json ℕ)}
    {limit : ℕ} (htier : tierOf json true = ⟨.call, limit⟩) :
    c.judge json 0 = ⟨json, true, 0, decide (k < limit)⟩ ∧
      (k < limit → (c.step (.frame json 0)).limiter.windows .call = List.replicate (k + 1) 0) := by
  have hkept : (List.replicate k 0).filter (inWindow 0) = List.replicate k 0 :=
    List.filter_eq_self.2 fun t ht => by rw [List.eq_of_mem_replicate ht]; decide
  have hcheck : ∀ b, (c.limiter.check ⟨.call, limit⟩ 0).1 = b ↔ decide (k < limit) = b := by
    intro b
    rw [WsRateLimiter.check, hwindow, hkept, List.length_replicate]
    split_ifs with hfull
    · rw [decide_eq_false (Nat.not_lt.2 hfull)]
    · rw [decide_eq_true (Nat.lt_of_not_le hfull)]
  refine ⟨?_, fun hlt => ?_⟩
  · rw [Connection.judge, hgrant, htier, hnow, (hcheck _).2 rfl]
  · rw [Connection.step, hgrant, htier, hnow, WsRateLimiter.check, hwindow, hkept,
      List.length_replicate, if_neg (Nat.not_le.2 hlt), List.replicate_succ']
    rfl

theorem run_relayed {k : ℕ} (hk : k ≤ WS_RATE_LIMIT_RELAY_MAX) :
    (((Connection.open ℕ 0).run (Sample.relayed k)).limiter.windows .call = List.replicate k 0 ∧
      ((Connection.open ℕ 0).run (Sample.relayed k)).grant.isInCall 0 = true ∧
      ((Connection.open ℕ 0).run (Sample.relayed k)).now = 0) ∧
    ((Connection.open ℕ 0).run (Sample.relayed k)).frames = List.replicate k Sample.relayFrame := by
  induction k with
  | zero => exact ⟨⟨rfl, by decide, rfl⟩, rfl⟩
  | succ k ih =>
    obtain ⟨⟨hwindow, hgrant, hnow⟩, hframes⟩ := ih (Nat.le_of_succ_le hk)
    have hrun : (Connection.open ℕ 0).run (Sample.relayed (k + 1)) =
        ((Connection.open ℕ 0).run (Sample.relayed k)).step (.frame Sample.relayJson 0) := by
      rw [Sample.relayed, List.replicate_succ', ← List.cons_append, Connection.run,
        List.foldl_concat]
      rfl
    obtain ⟨hjudge, hwindow'⟩ := judge_relay hwindow (by rw [hnow, hgrant]) hnow
      (show tierOf Sample.relayJson true = ⟨.call, WS_RATE_LIMIT_RELAY_MAX⟩ by decide)
    rw [hrun]
    refine ⟨⟨hwindow' (Nat.lt_of_succ_le hk), hgrant, hnow⟩, ?_⟩
    rw [Connection.step, hframes, hjudge, decide_eq_true (Nat.lt_of_succ_le hk),
      List.replicate_succ']
    rfl

/-- Six hundred relay frames of a call, and its offer is refused. -/
theorem offer_rejected : ¬∀ n (events : List (Event ℕ)),
    Budgets ((Connection.open ℕ n).run events).frames →
      ∀ f ∈ ((Connection.open ℕ n).run events).frames, f.accepted = true := by
  intro h
  obtain ⟨⟨hwindow, hgrant, hnow⟩, hframes⟩ := run_relayed
    (show WS_RATE_LIMIT_SIGNALING_MAX ≤ WS_RATE_LIMIT_RELAY_MAX by decide)
  obtain ⟨hjudge, -⟩ := judge_relay hwindow (by rw [hnow, hgrant]) hnow
    (show tierOf Sample.offerJson true = ⟨.call, WS_RATE_LIMIT_SIGNALING_MAX⟩ by decide)
  have hrun : ((Connection.open ℕ 0).run (Sample.relayed WS_RATE_LIMIT_SIGNALING_MAX ++
      [.frame Sample.offerJson 0])).frames =
    List.replicate WS_RATE_LIMIT_SIGNALING_MAX Sample.relayFrame ++ [Sample.offerFrame] := by
    rw [Connection.run, List.foldl_concat, Connection.step]
    change ((Connection.open ℕ 0).run (Sample.relayed WS_RATE_LIMIT_SIGNALING_MAX)).frames ++
      [((Connection.open ℕ 0).run (Sample.relayed WS_RATE_LIMIT_SIGNALING_MAX)).judge
        Sample.offerJson 0] = _
    rw [hframes, hjudge]
    rfl
  have hcount : ∀ (tier : WsRateTier) t, countAt t (ofClass tier (List.replicate
      WS_RATE_LIMIT_SIGNALING_MAX Sample.relayFrame ++ [Sample.offerFrame])) ≤
        (if relayTier = tier then 600 else 0) + if signalingTier = tier then 1 else 0 := by
    intro tier t
    rw [ofClass, List.filter_append, countAt_append]
    refine Nat.add_le_add ((List.length_filter_le _ _).trans ?_)
      ((List.length_filter_le _ _).trans ?_)
    · rw [List.filter_replicate, show Sample.relayFrame.claimed = relayTier by decide]
      by_cases htier : relayTier = tier
      · rw [if_pos (decide_eq_true htier), if_pos htier, List.length_replicate]
        decide
      · rw [if_neg (by rwa [decide_eq_true_eq])]
        exact Nat.zero_le _
    · rw [List.filter_cons, List.filter_nil,
        show Sample.offerFrame.claimed = signalingTier by decide]
      by_cases htier : signalingTier = tier
      · rw [if_pos (decide_eq_true htier), if_pos htier]
        exact Nat.le_refl 1
      · rw [if_neg (by rwa [decide_eq_true_eq])]
        exact Nat.zero_le _
  have hbudgets : Budgets (List.replicate WS_RATE_LIMIT_SIGNALING_MAX Sample.relayFrame ++
      [Sample.offerFrame]) := by
    refine ⟨fun t => hcount _ t |>.trans (by decide), fun t => hcount _ t |>.trans (by decide),
      fun t => hcount _ t |>.trans (by decide), fun f hf _ => ?_⟩
    rcases List.mem_append.1 hf with hf | hf
    · rw [List.eq_of_mem_replicate hf]
      rfl
    · rw [List.mem_singleton.1 hf]
      rfl
  have hall := h 0 (Sample.relayed WS_RATE_LIMIT_SIGNALING_MAX ++ [.frame Sample.offerJson 0])
  rw [hrun] at hall
  exact Bool.false_ne_true (hall hbudgets Sample.offerFrame
    (List.mem_append_right _ (List.mem_singleton.2 rfl)))

end OneToThree.Ws.RateTier

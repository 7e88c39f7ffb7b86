import Mathlib.Data.Finset.Card
import Mathlib.Order.Interval.Finset.Nat
import OneToThree.Lib.Json

/-!
# Rate tiers of a connection

Every frame of a connection is counted in one of two buckets, each a sliding window of a minute.
A frame of a call is counted in the bucket of calls, under a higher limit, while the server has
the connection in a call; signaling and relay frames share that bucket, under different limits.

The grant of the higher tier is a machine of its own: a call that the server has confirmed
holds it until a deadline, and a ring that nobody has answered for half a minute.

The events of a connection are its frames, the changes of its grant, and the time that passes.
A frame and the renewal of a grant read the clock twice.
-/

namespace OneToThree.Ws.RateTier

def WS_RATE_LIMIT_MAX : ℕ := 60

def WS_RATE_LIMIT_SIGNALING_MAX : ℕ := 600

def WS_RATE_LIMIT_RELAY_MAX : ℕ := 2400

def WS_RATE_LIMIT_WINDOW_MS : ℕ := 60000

def IN_CALL_TTL_MS : ℕ := 120000

def IN_CALL_BOOTSTRAP_MS : ℕ := 30000

def MAX_BOOTSTRAP_GRANTS : ℕ := 3

inductive WsRateBucket
  | control
  | call
  deriving DecidableEq

structure WsRateTier where
  bucket : WsRateBucket
  limit : ℕ
  deriving DecidableEq

/-! ## The limiter -/

/-- The times of the frames that were accepted, in each bucket. -/
structure WsRateLimiter where
  windows : WsRateBucket → List ℕ

/-- A time is in the window that ends now. -/
def inWindow (now t : ℕ) : Bool := now < t + WS_RATE_LIMIT_WINDOW_MS

def WsRateLimiter.check (l : WsRateLimiter) (tier : WsRateTier) (now : ℕ) : Bool × WsRateLimiter :=
  let kept := (l.windows tier.bucket).filter (inWindow now)
  if tier.limit ≤ kept.length then
    (false, ⟨fun b => if b = tier.bucket then kept else l.windows b⟩)
  else (true, ⟨fun b => if b = tier.bucket then kept ++ [now] else l.windows b⟩)

/-! ## The tiers -/

variable {N : Type}

def controlTier : WsRateTier := ⟨.control, WS_RATE_LIMIT_MAX⟩

def isGroupCallType (type : Option (Json N)) : Bool :=
  match type with
  | some (.str t) => "group_call:".toList.isPrefixOf t.toList
  | _ => false

def resolveWsRateLimit (json : Json N) (inCall : Bool) : WsRateTier :=
  let type := json.get? "type"
  if Json.isText type "call_invite" || Json.isText type "call_accept" ||
      Json.isText type "call_reject" || Json.isText type "call_leave" then controlTier
  else if !inCall then controlTier
  else if Json.isText type "webrtc_signal" &&
      Json.isText ((json.get? "signalData").bind (Json.get? "kind")) "relay_frame" ||
      Json.isText type "group_call:relay_frame" then ⟨.call, WS_RATE_LIMIT_RELAY_MAX⟩
  else if Json.isText type "webrtc_signal" || isGroupCallType type then
    ⟨.call, WS_RATE_LIMIT_SIGNALING_MAX⟩
  else controlTier

/-! ## The grant -/

structure CallTierGrant where
  inCallUntil : ℕ
  bootstrapUntil : ℕ
  bootstrapGrants : ℕ

namespace CallTierGrant

def create : CallTierGrant := ⟨0, 0, 0⟩

def isInCall (g : CallTierGrant) (now : ℕ) : Bool := now < g.inCallUntil || now < g.bootstrapUntil

def markInCall (g : CallTierGrant) (ttlMs now : ℕ) : CallTierGrant :=
  { g with
    inCallUntil := if g.inCallUntil < now + ttlMs then now + ttlMs else g.inCallUntil
    bootstrapGrants := 0 }

def markCallBootstrap (g : CallTierGrant) (now : ℕ) : CallTierGrant :=
  if MAX_BOOTSTRAP_GRANTS ≤ g.bootstrapGrants then g
  else { g with
    bootstrapGrants := g.bootstrapGrants + 1
    bootstrapUntil :=
      if g.bootstrapUntil < now + IN_CALL_BOOTSTRAP_MS then now + IN_CALL_BOOTSTRAP_MS
      else g.bootstrapUntil }

/-- The clock is read for the comparison, and read again for the deadline. -/
def refreshInCall (g : CallTierGrant) (now later : ℕ) : CallTierGrant :=
  if now < g.inCallUntil then { g with inCallUntil := later + IN_CALL_TTL_MS } else g

def clearInCall (g : CallTierGrant) : CallTierGrant :=
  { g with inCallUntil := 0, bootstrapUntil := 0 }

end CallTierGrant

/-! ## Connections -/

/-- A frame that was checked: what it says, unless it is not JSON, whether the connection was
    in a call, when it was checked, and with what result. -/
structure Frame (N : Type) where
  json : Option (Json N)
  inCall : Bool
  time : ℕ
  accepted : Bool

/-- The tier of a frame: what is not JSON is charged to the control bucket. -/
def tierOf (json : Option (Json N)) (inCall : Bool) : WsRateTier :=
  match json with
  | none => controlTier
  | some json => resolveWsRateLimit json inCall

def Frame.tier (f : Frame N) : WsRateTier := tierOf f.json f.inCall

structure Connection (N : Type) where
  limiter : WsRateLimiter
  grant : CallTierGrant
  now : ℕ
  /-- The frames so far, for the statements only. -/
  frames : List (Frame N)

def Connection.open (N : Type) (now : ℕ) : Connection N := ⟨⟨fun _ => []⟩, .create, now, []⟩

inductive Event (N : Type)
  /-- A frame, with the time between the two readings of the clock. -/
  | frame (json : Option (Json N)) (ms : ℕ)
  | markInCall (ttlMs : ℕ)
  | markCallBootstrap
  | refreshInCall (ms : ℕ)
  | clearInCall
  | elapse (ms : ℕ)

namespace Connection

/-- A frame, as it is judged. -/
def judge (c : Connection N) (json : Option (Json N)) (ms : ℕ) : Frame N :=
  let inCall := c.grant.isInCall c.now
  ⟨json, inCall, c.now + ms, (c.limiter.check (tierOf json inCall) (c.now + ms)).1⟩

def step (c : Connection N) : Event N → Connection N
  | .frame json ms =>
    { c with
      limiter := (c.limiter.check (tierOf json (c.grant.isInCall c.now)) (c.now + ms)).2
      now := c.now + ms
      frames := c.frames ++ [c.judge json ms] }
  | .markInCall ttlMs => { c with grant := c.grant.markInCall ttlMs c.now }
  | .markCallBootstrap => { c with grant := c.grant.markCallBootstrap c.now }
  | .refreshInCall ms =>
    { c with grant := c.grant.refreshInCall c.now (c.now + ms), now := c.now + ms }
  | .clearInCall => { c with grant := c.grant.clearInCall }
  | .elapse ms => { c with now := c.now + ms }

def run (c : Connection N) (events : List (Event N)) : Connection N := events.foldl step c

end Connection

/-! ## What the limiter keeps -/

/-- The frames of a bucket that were accepted. -/
def accepted (bucket : WsRateBucket) (frames : List (Frame N)) : List (Frame N) :=
  frames.filter fun f => f.tier.bucket = bucket && f.accepted

/-- How many of some frames are in the window that ends at a time. -/
def countAt (now : ℕ) (frames : List (Frame N)) : ℕ :=
  (frames.filter fun f => f.time ≤ now && inWindow now f.time).length

theorem inWindow_of_le {now later t : ℕ} (hle : now ≤ later) (h : inWindow later t = true) :
    inWindow now t = true := by
  rw [inWindow, decide_eq_true_eq] at h ⊢
  omega

/-- A frame is charged to the control bucket, or to that of calls while in a call. -/
theorem resolveWsRateLimit_cases (json : Json N) (inCall : Bool) :
    (resolveWsRateLimit json inCall = controlTier) ∨
    (inCall = true ∧ (resolveWsRateLimit json inCall = ⟨.call, WS_RATE_LIMIT_RELAY_MAX⟩ ∨
      resolveWsRateLimit json inCall = ⟨.call, WS_RATE_LIMIT_SIGNALING_MAX⟩)) := by
  rw [resolveWsRateLimit]
  split_ifs with hcontrol hout hrelay hsignal
  · exact .inl rfl
  · exact .inl rfl
  · exact .inr ⟨by simpa using hout, .inl rfl⟩
  · exact .inr ⟨by simpa using hout, .inr rfl⟩
  · exact .inl rfl

theorem tierOf_cases (json : Option (Json N)) (inCall : Bool) :
    (tierOf json inCall = controlTier) ∨
    (inCall = true ∧ (tierOf json inCall = ⟨.call, WS_RATE_LIMIT_RELAY_MAX⟩ ∨
      tierOf json inCall = ⟨.call, WS_RATE_LIMIT_SIGNALING_MAX⟩)) := by
  cases json with
  | none => exact .inl rfl
  | some json => exact resolveWsRateLimit_cases json inCall

theorem Frame.tier_cases (f : Frame N) : f.tier = controlTier ∨
    (f.inCall = true ∧ (f.tier = ⟨.call, WS_RATE_LIMIT_RELAY_MAX⟩ ∨
      f.tier = ⟨.call, WS_RATE_LIMIT_SIGNALING_MAX⟩)) := tierOf_cases f.json f.inCall

theorem check_fst (l : WsRateLimiter) (tier : WsRateTier) (now : ℕ) : (l.check tier now).1 = true ↔
    ((l.windows tier.bucket).filter (inWindow now)).length < tier.limit := by
  rw [WsRateLimiter.check]
  split_ifs with hfull
  · exact iff_of_false (by decide) (Nat.not_lt.2 hfull)
  · exact iff_of_true rfl (Nat.lt_of_not_le hfull)

/-- At a later time, a bucket has the times that it had, and that of the frame if it was
    accepted. -/
theorem filter_windows_check (l : WsRateLimiter) (tier : WsRateTier) {now later : ℕ}
    (hle : now ≤ later) (b : WsRateBucket) :
    ((l.check tier now).2.windows b).filter (inWindow later) =
      ((l.windows b ++ if b = tier.bucket ∧ (l.check tier now).1 = true then [now] else []).filter
        (inWindow later)) := by
  have hkept : ((l.windows tier.bucket).filter (inWindow now)).filter (inWindow later) =
      (l.windows tier.bucket).filter (inWindow later) := by
    rw [List.filter_filter]
    refine List.filter_congr fun t _ => ?_
    by_cases h : inWindow later t = true
    · rw [h, inWindow_of_le hle h, Bool.and_self]
    · rw [eq_false_of_ne_true h, Bool.false_and]
  rw [WsRateLimiter.check]
  by_cases hb : b = tier.bucket
  · subst hb
    split_ifs <;> simp_all
  · split_ifs <;> simp_all

/-- What the limiter has counted are the frames that were accepted, and no bucket has accepted
    more in a window than its limit. -/
structure Kept (c : Connection N) : Prop where
  time : ∀ f ∈ c.frames, f.time ≤ c.now
  window : ∀ later, c.now ≤ later → ∀ b, (c.limiter.windows b).filter (inWindow later) =
    ((accepted b c.frames).map Frame.time).filter (inWindow later)
  judged : ∀ before f after, c.frames = before ++ f :: after →
    (f.accepted = true ↔ countAt f.time (accepted f.tier.bucket before) < f.tier.limit)
  control : ∀ t, countAt t (accepted .control c.frames) ≤ WS_RATE_LIMIT_MAX
  call : ∀ t, countAt t (accepted .call c.frames) ≤ WS_RATE_LIMIT_RELAY_MAX

theorem countAt_append (t : ℕ) (l l' : List (Frame N)) :
    countAt t (l ++ l') = countAt t l + countAt t l' := by
  rw [countAt, List.filter_append, List.length_append]
  rfl

theorem accepted_append (b : WsRateBucket) (l l' : List (Frame N)) :
    accepted b (l ++ l') = accepted b l ++ accepted b l' := List.filter_append ..

/-- Of frames that are not later, those in a window are those that the limiter keeps. -/
theorem countAt_eq {now : ℕ} {l : List (Frame N)} (h : ∀ f ∈ l, f.time ≤ now) :
    countAt now l = ((l.map Frame.time).filter (inWindow now)).length := by
  rw [countAt, List.filter_map, List.length_map]
  congr 1
  refine List.filter_congr fun f hf => ?_
  rw [decide_eq_true (h f hf), Bool.true_and]
  rfl

theorem mem_accepted {b : WsRateBucket} {l : List (Frame N)} {f : Frame N} (h : f ∈ accepted b l) :
    f ∈ l := List.mem_of_mem_filter h

theorem Kept.open (n : ℕ) : Kept (Connection.open N n) where
  time := fun f hf => absurd hf List.not_mem_nil
  window := fun _ _ _ => rfl
  judged := fun before f after h => by simp [Connection.open] at h
  control := fun _ => Nat.zero_le _
  call := fun _ => Nat.zero_le _

/-- A connection whose frames and windows stay, while time passes. -/
theorem Kept.of_eq {c c' : Connection N} (h : Kept c) (hframes : c'.frames = c.frames)
    (hlimiter : c'.limiter = c.limiter) (hnow : c.now ≤ c'.now) : Kept c' where
  time := fun f hf => (h.time f (hframes ▸ hf)).trans hnow
  window := fun later hle b => by rw [hlimiter, hframes, h.window later (hnow.trans hle)]
  judged := fun before f after heq => h.judged before f after (hframes ▸ heq)
  control := hframes ▸ h.control
  call := hframes ▸ h.call

/-- One more frame, of those in a window: before it, as many as the limiter has counted. -/
theorem Kept.countAt_lt {c : Connection N} (h : Kept c) {f : Frame N} {b : WsRateBucket} {limit : ℕ}
    (hnow : c.now ≤ f.time) (hroom : countAt f.time (accepted b c.frames) < limit) {t : ℕ}
    (hle : f.time ≤ t) :
    countAt t (accepted b c.frames) < limit := by
  refine Nat.lt_of_le_of_lt ?_ hroom
  rw [countAt, countAt, ← List.countP_eq_length_filter, ← List.countP_eq_length_filter]
  refine List.countP_mono_left fun g hg hgt => ?_
  rw [Bool.and_eq_true, decide_eq_true_eq] at hgt ⊢
  exact ⟨(h.time g (mem_accepted hg)).trans hnow, inWindow_of_le hle hgt.2⟩

theorem countAt_singleton (t : ℕ) (f : Frame N) :
    countAt t [f] = if f.time ≤ t ∧ inWindow t f.time = true then 1 else 0 := by
  rw [countAt, List.filter_cons, List.filter_nil]
  by_cases h : f.time ≤ t ∧ inWindow t f.time = true
  · rw [if_pos h, if_pos (by rw [decide_eq_true h.1, h.2, Bool.and_self])]
    rfl
  · rw [if_neg h, if_neg (by rwa [Bool.and_eq_true, decide_eq_true_eq])]
    rfl

theorem accepted_singleton (b : WsRateBucket) (f : Frame N) :
    accepted b [f] = if f.tier.bucket = b ∧ f.accepted = true then [f] else [] := by
  rw [accepted, List.filter_cons, List.filter_nil]
  by_cases h : f.tier.bucket = b ∧ f.accepted = true
  · rw [if_pos h, if_pos (by rw [decide_eq_true h.1, h.2, Bool.and_self])]
  · rw [if_neg h, if_neg (by rwa [Bool.and_eq_true, decide_eq_true_eq])]

/-- A bucket in which frames are accepted while there are fewer than `limit` stays below it. -/
theorem Kept.countAt_le {c : Connection N} (h : Kept c) {f : Frame N} {b : WsRateBucket}
    {limit : ℕ} (hnow : c.now ≤ f.time) (hold : ∀ t, countAt t (accepted b c.frames) ≤ limit)
    (hroom : f.tier.bucket = b → f.accepted = true → countAt f.time (accepted b c.frames) < limit)
    (t : ℕ) : countAt t (accepted b (c.frames ++ [f])) ≤ limit := by
  rw [accepted_append, countAt_append, accepted_singleton]
  split_ifs with hacc
  · rw [countAt_singleton]
    split_ifs with hin
    · exact h.countAt_lt hnow (hroom hacc.1 hacc.2) hin.1
    · exact hold t
  · exact hold t

/-- What the limiter answers for a frame. -/
theorem Kept.accepted_iff {c : Connection N} (h : Kept c) (json : Option (Json N)) (ms : ℕ) :
    (c.judge json ms).accepted = true ↔
      countAt (c.now + ms) (accepted (c.judge json ms).tier.bucket c.frames) <
        (c.judge json ms).tier.limit := by
  have hcount := countAt_eq (l := accepted (c.judge json ms).tier.bucket c.frames) fun g hg =>
    (h.time g (mem_accepted hg)).trans (Nat.le_add_right c.now ms)
  rw [hcount, ← h.window _ (Nat.le_add_right _ _)]
  exact check_fst _ _ _

theorem Kept.frame {c : Connection N} (h : Kept c) (json : Option (Json N)) (ms : ℕ) :
    Kept (c.step (.frame json ms)) := by
  have hnow : c.now ≤ (c.judge json ms).time := Nat.le_add_right _ _
  have hroom : ∀ {b}, (c.judge json ms).tier.bucket = b → (c.judge json ms).accepted = true →
      countAt (c.judge json ms).time (accepted b c.frames) < (c.judge json ms).tier.limit := by
    rintro b rfl hacc
    exact (h.accepted_iff json ms).1 hacc
  refine ⟨fun g hg => ?_, fun later hle b => ?_, fun before g after heq => ?_, ?_, ?_⟩
  · rcases List.mem_append.1 hg with hg | hg
    · exact (h.time g hg).trans hnow
    · rw [List.mem_singleton.1 hg]
      exact Nat.le_refl _
  · refine (filter_windows_check c.limiter _ hle b).trans ?_
    change _ = ((accepted b (c.frames ++ [c.judge json ms])).map Frame.time).filter _
    rw [List.filter_append, accepted_append, List.map_append, List.filter_append,
      h.window later (hnow.trans hle), accepted_singleton]
    congr 2
    by_cases hacc : (c.judge json ms).tier.bucket = b ∧ (c.judge json ms).accepted = true
    · rw [if_pos hacc, if_pos ⟨hacc.1.symm, hacc.2⟩]
      rfl
    · rw [if_neg hacc, if_neg fun hb => hacc ⟨hb.1.symm, hb.2⟩]
      rfl
  · change c.frames ++ [c.judge json ms] = _ at heq
    rcases List.eq_nil_or_concat after with rfl | ⟨after, x, rfl⟩
    · obtain ⟨rfl, hg⟩ := List.append_inj' heq rfl
      obtain rfl := List.singleton_inj.1 hg
      exact h.accepted_iff json ms
    · rw [List.concat_eq_append, ← List.cons_append, ← List.append_assoc] at heq
      exact h.judged before g after (List.append_inj' heq rfl).1
  · refine h.countAt_le hnow h.control fun hb hacc => Nat.lt_of_lt_of_le (hroom hb hacc) ?_
    rcases (c.judge json ms).tier_cases with ht | ⟨-, ht | ht⟩
    · rw [ht]
      exact Nat.le_refl _
    · rw [ht] at hb
      cases hb
    · rw [ht] at hb
      cases hb
  · refine h.countAt_le hnow h.call fun hb hacc => Nat.lt_of_lt_of_le (hroom hb hacc) ?_
    rcases (c.judge json ms).tier_cases with ht | ⟨-, ht | ht⟩
    · rw [ht] at hb
      cases hb
    · rw [ht]
    · rw [ht]
      decide

theorem Kept.step {c : Connection N} (h : Kept c) (e : Event N) : Kept (c.step e) := by
  cases e with
  | frame json ms => exact h.frame json ms
  | refreshInCall ms => exact h.of_eq rfl rfl (Nat.le_add_right _ _)
  | elapse ms => exact h.of_eq rfl rfl (Nat.le_add_right _ _)
  | _ => exact h.of_eq rfl rfl (Nat.le_refl _)

theorem kept_run (n : ℕ) (events : List (Event N)) : Kept ((Connection.open N n).run events) := by
  induction events using List.reverseRecOn with
  | nil => exact .open n
  | append_singleton events e ih =>
    rw [Connection.run, List.foldl_concat]
    exact ih.step e

end OneToThree.Ws.RateTier

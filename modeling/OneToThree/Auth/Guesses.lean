import OneToThree.Auth.Lockout
import OneToThree.Lib.Outline

/-!
# Guesses of the second factor

A request reads the counter of failures, compares its code, and records a failure some commands
later.

* Any number of requests may read the counter before one of them has recorded its failure, and
  all of them compare their codes.
* The counter and the guard of Redis and those of the processes do not know of each other: when
  Redis fails, guesses are counted from zero, and a code that was accepted is accepted again.

`guesses_of_run`: along a run in which the guesses in progress are counted, and which keeps to
one counter and one guard (`Counted`), the codes that are compared in a window are bounded, and
no code is accepted again while it verifies.
-/

namespace OneToThree.Lockout

open Service
open Challenges (Link ServerId)

abbrev State := Service.State Store Command Command.Result Request Reply

variable (totp : ℕ → Code) (limits : Limits) (home : Option ServerId)

/-! ## The counter and the guard that are used -/

/-- The counter of Redis or of a process, if it has not expired. -/
def Store.counter (s : Store) : Option ServerId → Option Counter
  | none => s.inRedis
  | some server => s.inMem server

def Store.fails (s : Store) (home : Option ServerId) : ℕ := (s.counter home).elim 0 (·.count)

/-- Until when the guard of Redis or of a process keeps a code. -/
def Store.used (s : Store) (home : Option ServerId) (code : Code) : Option ℕ :=
  match home with
  | none => s.redisUsed.get? code
  | some server => s.memUsed.get? (server, code)

namespace Command

/-- The command reads the counter. -/
def checks : Command → Bool
  | .getFails => home = none
  | .memCheck server => home = some server
  | _ => false

def records : Command → Bool
  | .incrFails _ => home = none
  | .memRecord server _ => home = some server
  | _ => false

def resets : Command → Bool
  | .delFails => home = none
  | .memReset server => home = some server
  | _ => false

def compares : Command → Bool
  | .verifyTotp _ => true
  | _ => false

/-- The code that the guard is asked for. -/
def consumes : Command → Option Code
  | .useCode code | .memUse _ code => some code
  | _ => none

/-- The guard lets a code pass, which is accepted then. -/
def admits : (q : Command) → q.Result → Bool
  | .useCode _, r => r = some true
  | .memUse _ _, r => r
  | _, _ => false

end Command

def Request.guesses : Request → Bool
  | .login2fa _ _ _ _ => true
  | _ => false

/-- The window ends: the counter expires or is cleared. -/
def Ends (s : Store) (q : Command) : Bool :=
  q.resets home ||
    ((q.records home || (s.counter home).isSome) && ((s.answer totp q).2.counter home).isNone)

/-- What became of the guesses. -/
structure Guesses where
  /-- How many windows have ended. -/
  window : ℕ
  /-- The window of each code that was compared. -/
  compared : List ℕ
  /-- Who has read a count below the limit, and has not compared a code yet. -/
  checked : List ℕ
  /-- Who has compared a code, and has neither recorded a failure nor cleared the counter. -/
  pending : List ℕ
  /-- The code that each request has compared, and when. -/
  attempts : InsMap ℕ (Code × ℕ)
  accepted : List (Code × ℕ)

namespace Guesses

/-- A code is compared. -/
def compare (h : Guesses) (i : ℕ) (code : Code) (now : ℕ) : Guesses :=
  { h with
    compared := h.compared ++ [h.window]
    checked := h.checked.erase i
    pending := i :: h.pending
    attempts := h.attempts.set i (code, now) }

/-- Another command. -/
def note (h : Guesses) (s : Store) (i : ℕ) (a : Request) (q : Command) : Guesses :=
  { h with
    window := if Ends totp home s q then h.window + 1 else h.window
    checked :=
      if q.checks home ∧ a.guesses ∧ s.fails home < limits.maxFails then i :: h.checked
      else h.checked
    pending := if q.records home ∨ q.resets home then h.pending.erase i else h.pending
    accepted :=
      if q.admits (s.answer totp q).1 then h.accepted ++ (h.attempts.get? i).toList
      else h.accepted }

def record (h : Guesses) (s : Store) (i : ℕ) (a : Request) : Command → Guesses
  | .verifyTotp code => h.compare i code s.now
  | q => h.note totp limits home s i a q

end Guesses

def guesses : History Store Command Command.Result Request Reply Guesses where
  start := ⟨0, [], [], [], ∅, []⟩
  receive _ _ h := h
  serve s i a q _ h := h.record totp limits home s.store i a q

/-- Redis answers every call, or it fails every call and one process serves the requests. -/
def Steady (s : Store) : Command → Prop
  | .getFails | .ttlFails | .expireFails _ | .incrFails _ | .delFails | .useCode _ =>
    s.link = if home = none then .up else .down
  | .memCheck server | .memRecord server _ | .memReset server | .memUse server _ =>
    home = some server
  | .verifyTotp _ | .await | .setLink _ | .elapse _ => True

instance (s : Store) : ∀ q, Decidable (Steady home s q)
  | .getFails | .ttlFails | .expireFails _ | .incrFails _ | .delFails | .useCode _ =>
    inferInstanceAs (Decidable (_ = _))
  | .memCheck _ | .memRecord _ _ | .memReset _ | .memUse _ _ =>
    inferInstanceAs (Decidable (_ = _))
  | .verifyTotp _ | .await | .setLink _ | .elapse _ => instDecidableTrue

/-- The steps of guesses that are counted: a guess that reads a count below the limit still does
    with the guesses in progress; the counter and the guard stay the same; and the guard is asked
    within a period of the comparison. -/
def Counted (p : State × Guesses) (i : ℕ) (a : Request) (q : Command) : Prop :=
  Steady home p.1.store q ∧
    (q.checks home = true → a.guesses = true → p.1.store.fails home < limits.maxFails →
      p.1.store.fails home + p.2.checked.length + p.2.pending.length < limits.maxFails) ∧
    (q.consumes.isSome = true → ∀ x ∈ p.2.attempts.get? i, p.1.store.now ≤ x.2 + PERIOD_MS)

instance (p : State × Guesses) (i : ℕ) (a : Request) (q : Command) :
    Decidable (Counted limits home p i a q) := instDecidableAnd

/-- The runs of guesses that are counted. -/
abbrev counted : Machine (State × Guesses) (Event Request) :=
  ((lockout totp limits).recorded (guesses totp limits home) fun _ => True).restrict
    (Guarded (fun _ _ => True) (Counted limits home))

/-! ## What a request does -/

/-- Redis answers, where the command asks for the time that is left. -/
def Command.Answered : (q : Command) → q.Result → Prop
  | .ttlFails, r => r ≠ none
  | .expireFails _, r => r = true
  | _, _ => True

/-- No code is compared, as long as Redis answers. -/
def Spared : Procedure Reply → Prop
  | .done _ => True
  | .ask q next => q.compares = false ∧ ∀ r, q.Answered r → Spared (next r)

/-! ## The commands -/

section
variable {totp limits home} {s : Store} {q : Command}

theorem now_le_answer : s.now ≤ (s.answer totp q).2.now := by
  cases q with
  | elapse ms => exact Nat.le_add_right _ _
  | expireFails _ | incrFails _ | delFails | useCode _ | memUse _ _ =>
    simp only [Store.answer]
    split_ifs <;> exact Nat.le_refl _
  | _ => exact Nat.le_refl _

theorem filter_later {c : Option Counter} {ms : ℕ} :
    c.filter (fun c => s.now + ms < c.expiresAt) =
      (c.filter fun c => s.now < c.expiresAt).filter fun c => s.now + ms < c.expiresAt := by
  rw [Option.filter_filter]
  congr 1
  funext c
  rw [← Bool.decide_and]
  exact decide_eq_decide.2 ⟨fun h => ⟨by omega, h⟩, fun h => h.2⟩

/-- A counter is what it was, if it has not expired. -/
def Kept (c c' : Option Counter) : Prop :=
  ∃ (f : Counter → Counter) (keep : Counter → Bool), (∀ c, (f c).count = c.count) ∧
    c' = (c.map f).filter keep

theorem Kept.refl (c : Option Counter) : Kept c c := by
  refine ⟨id, fun _ => true, fun _ => rfl, ?_⟩
  cases c <;> rfl

variable (totp) in
/-- What a command that does not clear the counter makes of it: it records a failure, or keeps
    the count. -/
theorem counter_answer (hsteady : Steady home s q) (hresets : q.resets home = false) :
    (q.records home = true ∧ ∃ windowSeconds keep, (s.answer totp q).2.counter home =
      (some (s.recorded windowSeconds (s.counter home))).filter keep) ∨
    (q.records home = false ∧ Kept (s.counter home) ((s.answer totp q).2.counter home)) := by
  cases q with
  | expireFails seconds =>
    refine .inr ⟨rfl, ?_⟩
    cases home with
    | none =>
      have hlink : s.link = .up := hsteady
      refine ⟨fun c => { c with expiresAt := s.now + seconds * 1000 },
        fun c => s.now < c.expiresAt, fun _ => rfl, ?_⟩
      simp only [Store.answer, hlink]
      rfl
    | some server =>
      simp only [Store.answer]
      split_ifs <;> exact .refl _
  | incrFails windowSeconds =>
    cases home with
    | none =>
      have hlink : s.link = .up := hsteady
      refine .inl ⟨rfl, windowSeconds, fun c => s.now < c.expiresAt, ?_⟩
      simp only [Store.answer, hlink]
      rfl
    | some server =>
      refine .inr ⟨rfl, ?_⟩
      simp only [Store.answer]
      split_ifs <;> exact .refl _
  | delFails =>
    cases home with
    | none => cases hresets
    | some server =>
      refine .inr ⟨rfl, ?_⟩
      simp only [Store.answer]
      split_ifs <;> exact .refl _
  | memRecord server windowSeconds =>
    obtain rfl : home = some server := hsteady
    refine .inl ⟨decide_eq_true rfl, windowSeconds, fun c => s.now < c.expiresAt, ?_⟩
    change ((s.memFails.set server _).get? server).filter _ = _
    rw [InsMap.get?_set_self]
    rfl
  | memReset server => exact absurd (decide_eq_true hsteady) (Bool.eq_false_iff.1 hresets)
  | elapse ms =>
    refine .inr ⟨rfl, id, fun c => s.now + ms < c.expiresAt, fun _ => rfl, ?_⟩
    rw [Option.map_id]
    cases home <;> exact filter_later
  | useCode code =>
    refine .inr ⟨rfl, ?_⟩
    rw [Store.answer]
    split_ifs <;> cases home <;> exact .refl _
  | memUse server code =>
    refine .inr ⟨rfl, ?_⟩
    rw [Store.answer]
    split_ifs <;> cases home <;> exact .refl _
  | _ => exact .inr ⟨rfl, by cases home <;> exact .refl _⟩

/-- As long as its window does not end, the counter goes on from where it was. -/
theorem fails_answer (hsteady : Steady home s q) (h : Ends totp home s q = false) :
    (s.answer totp q).2.fails home = s.fails home + if q.records home then 1 else 0 := by
  obtain ⟨hresets, hlive⟩ := Bool.or_eq_false_iff.1 h
  rw [Bool.and_eq_false_iff, Bool.or_eq_false_iff] at hlive
  rcases counter_answer totp hsteady hresets with
    ⟨hrecords, windowSeconds, keep, hcounter⟩ | ⟨hrecords, f, keep, hf, hcounter⟩
  · rw [Store.fails, Store.fails, hrecords, if_pos rfl, hcounter]
    rw [hcounter, hrecords] at hlive
    have hkeep : keep (s.recorded windowSeconds (s.counter home)) = true := by
      by_contra hkeep
      rw [Option.filter_some_neg (by simpa using hkeep)] at hlive
      simp at hlive
    rw [Option.filter_some_pos hkeep]
    cases s.counter home <;> rfl
  · rw [Store.fails, Store.fails, hrecords, hcounter]
    rw [hcounter, hrecords] at hlive
    cases hc : s.counter home with
    | none => rfl
    | some c =>
      rw [hc] at hlive
      have hkeep : keep (f c) = true := by
        by_contra hkeep
        rw [Option.map_some, Option.filter_some_neg (by simpa using hkeep)] at hlive
        simp at hlive
      rw [Option.map_some, Option.filter_some_pos hkeep]
      exact hf c

/-! ## The guard -/

variable (totp) in
/-- The guard lets a code pass which it does not keep, and keeps it from then on. -/
theorem used_answer (hsteady : Steady home s q) :
    (∃ code, q.consumes = some code ∧ q.admits (s.answer totp q).1 = true ∧
      (∀ e ∈ s.used home code, e ≤ s.now) ∧ ∀ code', (s.answer totp q).2.used home code' =
        if code' = code then some (s.now + TTL_S * 1000) else s.used home code') ∨
    (q.admits (s.answer totp q).1 = false ∧
      ∀ code, (s.answer totp q).2.used home code = s.used home code) := by
  cases q with
  | useCode code =>
    cases home with
    | none =>
      have hlink : s.link = .up := hsteady
      by_cases hfresh : ∀ e ∈ s.redisUsed.get? code, e ≤ s.now
      · have hanswer : s.answer totp (.useCode code) = (some true,
            { s with redisUsed := s.redisUsed.set code (s.now + TTL_S * 1000) }) := by
          rw [Store.answer, decide_eq_true hfresh, if_pos hlink, if_neg (by rw [hlink]; decide)]
        rw [hanswer]
        exact .inl ⟨code, rfl, rfl, hfresh, fun code' => InsMap.get?_set _ _ _ _⟩
      · have hanswer : s.answer totp (.useCode code) = (some false, s) := by
          rw [Store.answer, decide_eq_false hfresh, if_pos hlink, if_pos (.inr rfl)]
        rw [hanswer]
        exact .inr ⟨rfl, fun code' => rfl⟩
    | some server =>
      have hlink : s.link = .down := hsteady
      have hanswer : s.answer totp (.useCode code) = (none, s) := by
        rw [Store.answer, if_neg (by rw [hlink]; decide), if_pos (.inl hlink)]
      rw [hanswer]
      exact .inr ⟨rfl, fun code' => rfl⟩
  | memUse server code =>
    obtain rfl : home = some server := hsteady
    by_cases hfresh : ∀ e ∈ s.memUsed.get? (server, code), e ≤ s.now
    · have hanswer : s.answer totp (.memUse server code) = (true,
          { s with memUsed := s.memUsed.set (server, code) (s.now + TTL_S * 1000) }) := by
        rw [Store.answer, decide_eq_true hfresh, if_neg (by decide)]
      rw [hanswer]
      refine .inl ⟨code, rfl, rfl, hfresh, fun code' => (InsMap.get?_set _ _ _ _).trans ?_⟩
      exact if_congr (by rw [Prod.mk.injEq, and_iff_right rfl]) rfl rfl
    · have hanswer : s.answer totp (.memUse server code) = (false, s) := by
        rw [Store.answer, decide_eq_false hfresh, if_pos rfl]
      rw [hanswer]
      exact .inr ⟨rfl, fun code' => rfl⟩
  | expireFails _ | incrFails _ | delFails =>
    refine .inr ⟨rfl, fun code => ?_⟩
    simp only [Store.answer]
    split_ifs <;> rfl
  | _ => exact .inr ⟨rfl, fun code => rfl⟩

end

/-! ## What is known of the guesses -/

/-- The codes compared in the window are counted, or their failures are still to be recorded. -/
structure Within (s : Store) (h : Guesses) : Prop where
  past : ∀ k ∈ h.compared, k ≤ h.window
  bound : ∀ k, h.compared.count k ≤ limits.maxFails
  room : h.compared.count h.window + h.checked.length ≤ limits.maxFails
  counted : h.compared.count h.window ≤ s.fails home + h.pending.length

/-- The guard keeps the codes that were accepted. -/
structure Guards (s : Store) (h : Guesses) : Prop where
  attempted : ∀ i x, h.attempts.get? i = some x → x.2 ≤ s.now
  verified : ∀ x ∈ h.accepted, verifyTotp totp x.2 x.1 = true
  kept : ∀ x ∈ h.accepted, ∃ e ∈ s.used home x.1, x.2 + TTL_S * 1000 ≤ e
  once : h.accepted.Pairwise fun x y => x.1 = y.1 → x.2 + 3 * PERIOD_MS ≤ y.2

section
variable {totp limits home} {s : Store} {h : Guesses} {i : ℕ} {a : Request} {q : Command}
  {code : Code}

/-- A guess that was checked is compared. -/
theorem Within.compare (hs : Within limits home s h) (hi : i ∈ h.checked) :
    Within limits home s (h.compare i code s.now) := by
  have hcount : ∀ k, (h.compared ++ [h.window]).count k =
      h.compared.count k + if h.window == k then 1 else 0 := by
    intro k
    rw [List.count_append, List.count_singleton]
  have hself : (h.compared ++ [h.window]).count h.window = h.compared.count h.window + 1 := by
    rw [hcount, if_pos (beq_self_eq_true _)]
  have hlength := List.length_erase_of_mem hi
  have hpos := List.length_pos_of_mem hi
  obtain ⟨hpast, hbound, hroom, hcounted⟩ := hs
  refine ⟨fun k hk => ?_, fun k => ?_, ?_, ?_⟩
  · rcases List.mem_append.1 hk with hk | hk
    · exact hpast k hk
    · exact Nat.le_of_eq (List.mem_singleton.1 hk)
  · refine Nat.le_trans (Nat.le_of_eq (hcount k)) ?_
    split_ifs with hk
    · rw [← eq_of_beq hk]
      omega
    · exact hbound k
  · change (h.compared ++ [h.window]).count h.window + (h.checked.erase i).length ≤ _
    rw [hself]
    omega
  · change (h.compared ++ [h.window]).count h.window ≤ _ + (i :: h.pending).length
    rw [hself, List.length_cons]
    omega

/-- A check that finds the counter below the limit leaves room for the guesses in progress, and
    a failure that is recorded is no longer pending. -/
theorem Within.note (hs : Within limits home s h) (hsteady : Steady home s q)
    (hchecks : q.checks home = true → a.guesses = true → s.fails home < limits.maxFails →
      s.fails home + h.checked.length + h.pending.length < limits.maxFails) :
    Within limits home (s.answer totp q).2 (h.note totp limits home s i a q) := by
  obtain ⟨hpast, hbound, hroom, hcounted⟩ := hs
  have hchecked : ∀ n, n ≤ s.fails home + h.pending.length → n + h.checked.length ≤ limits.maxFails →
      n + (h.note totp limits home s i a q).checked.length ≤ limits.maxFails := by
    intro n hcount hn
    rw [Guesses.note]
    dsimp only
    split_ifs with hif
    · have hlt := hchecks hif.1 hif.2.1 hif.2.2
      rw [List.length_cons]
      omega
    · exact hn
  cases hends : Ends totp home s q with
  | true =>
    have hwindow : (h.note totp limits home s i a q).window = h.window + 1 := if_pos hends
    have hcount : h.compared.count (h.window + 1) = 0 :=
      List.count_eq_zero.2 fun hk => Nat.not_succ_le_self _ (hpast _ hk)
    refine ⟨fun k hk => ?_, hbound, ?_, ?_⟩ <;> rw [hwindow]
    · exact Nat.le_succ_of_le (hpast k hk)
    · change h.compared.count (h.window + 1) + _ ≤ _
      rw [hcount]
      exact hchecked 0 (Nat.zero_le _) (by omega)
    · exact Nat.le_trans (Nat.le_of_eq hcount) (Nat.zero_le _)
  | false =>
    have hwindow : (h.note totp limits home s i a q).window = h.window :=
      if_neg (by rw [hends]; exact Bool.false_ne_true)
    refine ⟨fun k hk => ?_, hbound, ?_, ?_⟩ <;> rw [hwindow]
    · exact hpast k hk
    · exact hchecked _ hcounted hroom
    · have hresets : q.resets home = false := (Bool.or_eq_false_iff.1 hends).1
      have hlength := List.le_length_erase (a := i) (l := h.pending)
      rw [fails_answer hsteady hends, Guesses.note]
      dsimp only
      rw [hresets]
      cases q.records home
      · exact hcounted
      · change _ ≤ _ + 1 + (h.pending.erase i).length
        omega

/-! ## The codes that are accepted -/

/-- A code passes the guard, and none passes that was accepted a short while ago. -/
theorem Guards.note (hs : Guards totp home s h) (hsteady : Steady home s q)
    (hconsumes : ∀ code, q.consumes = some code → ∃ t, h.attempts.get? i = some (code, t) ∧
      verifyTotp totp t code = true ∧ s.now ≤ t + PERIOD_MS) :
    Guards totp home (s.answer totp q).2 (h.note totp limits home s i a q) := by
  have hnow : s.now ≤ (s.answer totp q).2.now := now_le_answer
  have hattempted : ∀ j x, h.attempts.get? j = some x → x.2 ≤ (s.answer totp q).2.now :=
    fun j x hx => Nat.le_trans (hs.attempted j x hx) hnow
  rcases used_answer totp hsteady with ⟨code, hcode, hadmits, hfresh, hused⟩ | ⟨hadmits, hused⟩
  · obtain ⟨t, hattempt, hverify, hlate⟩ := hconsumes code hcode
    have ht : t ≤ s.now := hs.attempted i _ hattempt
    have haccepted : (h.note totp limits home s i a q).accepted = h.accepted ++ [(code, t)] := by
      rw [Guesses.note]
      dsimp only
      rw [if_pos hadmits, hattempt]
      rfl
    refine ⟨hattempted, fun x hx => ?_, fun x hx => ?_, ?_⟩
    · rw [haccepted] at hx
      rcases List.mem_append.1 hx with hx | hx
      · exact hs.verified x hx
      · obtain rfl := List.mem_singleton.1 hx
        exact hverify
    · rw [haccepted] at hx
      rw [hused]
      rcases List.mem_append.1 hx with hx | hx
      · obtain ⟨e, he, hle⟩ := hs.kept x hx
        split_ifs with hxcode
        · have hexpired := hfresh e (hxcode ▸ he)
          exact ⟨_, Option.mem_some_self _,
            Nat.le_trans hle (Nat.le_trans hexpired (Nat.le_add_right _ _))⟩
        · exact ⟨e, he, hle⟩
      · obtain rfl := List.mem_singleton.1 hx
        rw [if_pos rfl]
        exact ⟨_, Option.mem_some_self _, Nat.add_le_add_right ht _⟩
    · rw [haccepted]
      refine List.pairwise_append.2 ⟨hs.once, List.pairwise_singleton _ _, fun x hx y hy hxy => ?_⟩
      obtain rfl := List.mem_singleton.1 hy
      obtain ⟨e, he, hle⟩ := hs.kept x hx
      have hexpired := hfresh e ((show x.1 = code from hxy) ▸ he)
      rw [PERIOD_MS] at *
      rw [TTL_S] at hle
      dsimp only
      omega
  · have haccepted : (h.note totp limits home s i a q).accepted = h.accepted :=
      if_neg (by rw [hadmits]; exact Bool.false_ne_true)
    refine ⟨hattempted, fun x hx => ?_, fun x hx => ?_, ?_⟩
    · exact hs.verified x (haccepted ▸ hx)
    · rw [hused]
      exact hs.kept x (haccepted ▸ hx)
    · rw [haccepted]
      exact hs.once

theorem Guards.compare (hs : Guards totp home s h) :
    Guards totp home s (h.compare i code s.now) := by
  refine ⟨fun j x hx => ?_, hs.verified, hs.kept, hs.once⟩
  rw [Guesses.compare, InsMap.get?_set] at hx
  split_ifs at hx
  · obtain rfl := Option.some.inj hx
    exact Nat.le_refl _
  · exact hs.attempted j x hx

/-- A code does not verify at two times that are so far apart, for one epoch. -/
theorem not_near {t t' epoch : ℕ} (h : t + 3 * PERIOD_MS ≤ t') : ¬(Near t epoch ∧ Near t' epoch) := by
  rintro ⟨⟨-, hafter⟩, hbefore, -⟩
  rw [PERIOD_MS] at *
  omega

end

/-! ## What a request goes on to do -/

/-- The commands of a check, and the waits, which assert nothing. -/
def Command.precedes : Command → Bool
  | .await | .getFails | .memCheck _ => true
  | _ => false

/-- A code is compared only by who has checked, and the guard is asked only for a code that has
    verified. -/
def preGuess : Annotation Store Command Command.Result Request Reply Guesses :=
  fun i _ q next _ h =>
    (q.precedes = true ∨ Spared (.ask q next) ∨ i ∈ h.checked) ∧
      ∀ code, q.consumes = some code →
        ∃ t, h.attempts.get? i = some (code, t) ∧ verifyTotp totp t code = true

abbrev KeepsGuesses (a : Request) (q : Command) (next : q.Result → Procedure Reply) : Prop :=
  True ∧ (lockout totp limits).Local (guesses totp limits home) (Counted limits home)
    (fun s h => Within limits home s h ∧ Guards totp home s h) (preGuess totp)
    (fun _ _ _ _ _ => True) a q next

/-- No code is compared, and the guard is not asked. -/
abbrev Idle (q : Command) (_ : q.Result → Procedure Reply) : Prop :=
  q.compares = false ∧ q.consumes = none

section
variable {totp limits home} {s : Store} {h : Guesses} {i j : ℕ} {a : Request} {q : Command}
  {prog : Procedure Reply}

theorem spared_of_along (hprog : prog.Along fun q _ => q.compares = false) : Spared prog := by
  induction prog with
  | done b => trivial
  | ask q next ih => exact ⟨hprog.1, fun r _ => ih r (hprog.2 r)⟩

theorem spared_of_idle (hidle : prog.Along Idle) : Spared prog :=
  spared_of_along (hidle.imp fun _ _ h => h.1)

theorem asserted_of (hprog : Spared prog ∨ i ∈ h.checked)
    (hconsumes : ∀ q next, prog = .ask q next → q.consumes = none) :
    Asserted (preGuess totp) (fun _ _ _ _ _ => True) i a s h prog := by
  cases prog with
  | done b => trivial
  | ask q next =>
    refine ⟨.inr hprog, fun code hcode => ?_⟩
    rw [hconsumes q next rfl] at hcode
    cases hcode

theorem asserted_idle (hidle : prog.Along Idle) :
    Asserted (preGuess totp) (fun _ _ _ _ _ => True) i a s h prog := by
  refine asserted_of (.inl (spared_of_idle hidle)) ?_
  rintro q next rfl
  exact hidle.1.2

theorem keeps_idle (hidle : prog.Along Idle) : prog.Along (KeepsGuesses totp limits home a) := by
  induction prog with
  | done b => trivial
  | ask q next ih =>
    exact ⟨⟨trivial, fun p i r s _ _ _ _ => asserted_idle (hidle.2 r)⟩, fun r => ih r (hidle.2 r)⟩

theorem idle_recordFailure {server : ServerId} {f : LockoutStatus → Procedure Reply}
    (hf : ∀ st, (f st).Along Idle) : (recordFailure limits server >>= f).Along Idle := by
  refine ⟨⟨rfl, rfl⟩, fun r => ?_⟩
  cases r with
  | none => exact ⟨⟨rfl, rfl⟩, fun r => hf _⟩
  | some r => exact hf _

theorem memStatus_bind (server : ServerId) (f : LockoutStatus → Procedure Reply) :
    (memStatus limits server >>= f) = .ask (.memCheck server) fun entry =>
      f (entry.elim ⟨false, 0, 0⟩ fun entry => status limits entry.count entry.expiresAt) := by
  refine congrArg (Program.ask _) (funext fun entry => ?_)
  cases entry <;> rfl

/-- A check, by the answers. -/
theorem checkLockout_bind (server : ServerId) (f : LockoutStatus → Procedure Reply) :
    (checkLockout limits server >>= f) = .ask .getFails fun countStr =>
      match countStr with
      | none => memStatus limits server >>= f
      | some countStr => .ask .ttlFails fun ttl =>
        match ttl with
        | none => memStatus limits server >>= f
        | some ttl =>
          if 0 < countStr.getD 0 ∧ ttl = none then
            .ask (.expireFails limits.windowSeconds) fun ok =>
              if ok then f (status limits (countStr.getD 0) limits.windowSeconds)
              else memStatus limits server >>= f
          else f (status limits (countStr.getD 0) (ttl.getD 0)) := by
  refine congrArg (Program.ask _) (funext fun countStr => ?_)
  cases countStr with
  | none => rfl
  | some countStr =>
    refine congrArg (Program.ask _) (funext fun ttl => ?_)
    cases ttl with
    | none => rfl
    | some ttl =>
      refine (apply_ite (· >>= f) (0 < countStr.getD 0 ∧ ttl = none) _ _).trans
        (if_congr Iff.rfl ?_ rfl)
      refine congrArg (Program.ask _) (funext fun ok => ?_)
      exact apply_ite (· >>= f) (ok = true) _ _

theorem idle_checkLockout {server : ServerId} {f : LockoutStatus → Procedure Reply}
    (hf : ∀ st, (f st).Along Idle) : (checkLockout limits server >>= f).Along Idle := by
  have hmem : (memStatus limits server >>= f).Along Idle := by
    rw [memStatus_bind]
    exact ⟨⟨rfl, rfl⟩, fun entry => hf _⟩
  rw [checkLockout_bind]
  refine ⟨⟨rfl, rfl⟩, fun countStr => ?_⟩
  cases countStr with
  | none => exact hmem
  | some countStr =>
    refine ⟨⟨rfl, rfl⟩, fun ttl => ?_⟩
    cases ttl with
    | none => exact hmem
    | some ttl =>
      refine .ite (fun _ => ⟨⟨rfl, rfl⟩, fun ok => ?_⟩) fun _ => hf _
      exact .ite (fun _ => hf _) fun _ => hmem

theorem idle_resetLockout {server : ServerId} {f : Unit → Procedure Reply}
    (hf : (f ()).Along Idle) : (resetLockout server >>= f).Along Idle := by
  refine ⟨⟨rfl, rfl⟩, fun r => ?_⟩
  cases r
  · exact ⟨⟨rfl, rfl⟩, fun r => hf⟩
  · exact hf

theorem idle_verify (server : ServerId) (refused : Option (String × Bool)) :
    (verify limits server refused).Along Idle := by
  refine idle_checkLockout fun st => .ite (fun _ => ?_) fun _ => ?_
  · exact ⟨⟨rfl, rfl⟩, fun r => trivial⟩
  · refine ⟨⟨rfl, rfl⟩, fun r => ?_⟩
    cases refused with
    | none => trivial
    | some refused =>
      exact .ite (fun _ => idle_recordFailure fun st => trivial) fun _ => trivial

theorem mem_checked_note (hj : j ∈ h.checked) :
    j ∈ (h.note totp limits home s i a q).checked := by
  rw [Guesses.note]
  dsimp only
  split_ifs
  · exact List.mem_cons_of_mem _ hj
  · exact hj

/-- Who finds the counter below the limit has checked. -/
theorem mem_checked_self (hchecks : q.checks home = true) (ha : a.guesses = true)
    (hlt : s.fails home < limits.maxFails) : i ∈ (h.note totp limits home s i a q).checked := by
  have hchecked : (h.note totp limits home s i a q).checked = i :: h.checked :=
    if_pos ⟨hchecks, ha, hlt⟩
  rw [hchecked]
  exact List.mem_cons_self

variable (totp) in
theorem fails_of_getFails {countStr : Option ℕ} (hsteady : Steady home s .getFails)
    (hcount : (s.answer totp .getFails).1 = some countStr) :
    home = none ∧ s.fails home = countStr.getD 0 := by
  change (if s.link = .up then some (s.inRedis.map (·.count)) else none) = some countStr at hcount
  cases home with
  | none =>
    have hlink : s.link = .up := hsteady
    rw [if_pos hlink] at hcount
    rw [← Option.some.inj hcount]
    refine ⟨rfl, ?_⟩
    change s.inRedis.elim 0 (·.count) = _
    cases s.inRedis <;> rfl
  | some server =>
    have hlink : s.link = .down := hsteady
    rw [if_neg (by rw [hlink]; decide)] at hcount
    cases hcount

/-- Who goes on from a check has checked, unless the account is locked. -/
theorem keeps_checkLockout (hmax : 0 < limits.maxFails) {server : ServerId}
    {f : LockoutStatus → Procedure Reply} (ha : a.guesses = true)
    (hlocked : ∀ st, st.locked = true → (f st).Along Idle)
    (hhead : ∀ st q next, f st = .ask q next → q.consumes = none)
    (hf : ∀ st, (f st).Along (KeepsGuesses totp limits home a)) :
    (checkLockout limits server >>= f).Along (KeepsGuesses totp limits home a) := by
  have hspared : ∀ {count retryAfter}, limits.maxFails ≤ count →
      Spared (f (status limits count retryAfter)) :=
    fun hle => spared_of_idle (hlocked _ (decide_eq_true hle))
  have hmem : (memStatus limits server >>= f).Along (KeepsGuesses totp limits home a) := by
    rw [memStatus_bind]
    refine ⟨⟨trivial, fun p i r s hanswer hok _ _ => ?_⟩, fun entry => hf _⟩
    obtain ⟨rfl, rfl⟩ := Prod.ext_iff.1 hanswer
    have hhome : home = some server := hok.1
    have hfails : p.1.store.fails home = (p.1.store.inMem server).elim 0 (·.count) := by
      rw [hhome]
      rfl
    refine asserted_of ?_ (hhead _)
    by_cases hlt : p.1.store.fails home < limits.maxFails
    · exact .inr (mem_checked_self (decide_eq_true hhome) ha hlt)
    · rw [hfails] at hlt
      change Spared (f ((p.1.store.inMem server).elim _ _)) ∨ _
      cases hentry : p.1.store.inMem server with
      | none =>
        rw [hentry] at hlt
        exact absurd hmax hlt
      | some entry =>
        rw [hentry] at hlt
        exact .inl (hspared (Nat.le_of_not_lt hlt))
  have hmem_head : ∀ {i s h}, Asserted (preGuess totp) (fun _ _ _ _ _ => True) i a s h
      (memStatus limits server >>= f) :=
    fun {i s h} => ⟨.inl rfl, fun code hcode => by cases hcode⟩
  rw [checkLockout_bind]
  refine ⟨⟨trivial, fun p i r s hanswer hok _ _ => ?_⟩, fun countStr => ?_⟩
  · cases r with
    | none => exact hmem_head
    | some countStr =>
      obtain ⟨hcount, rfl⟩ := Prod.ext_iff.1 hanswer
      obtain ⟨hhome, hfails⟩ := fails_of_getFails totp hok.1 hcount
      refine asserted_of ?_ fun q next heq => by cases heq; rfl
      by_cases hlt : p.1.store.fails home < limits.maxFails
      · exact .inr (mem_checked_self (decide_eq_true hhome) ha hlt)
      · rw [hfails] at hlt
        refine .inl ⟨rfl, fun ttl httl => ?_⟩
        cases ttl with
        | none => exact absurd rfl httl
        | some ttl =>
          dsimp only
          split
          · refine ⟨rfl, fun ok hok => ?_⟩
            obtain rfl : ok = true := hok
            exact hspared (Nat.le_of_not_lt hlt)
          · exact hspared (Nat.le_of_not_lt hlt)
  cases countStr with
  | none => exact hmem
  | some countStr =>
    refine ⟨⟨trivial, fun p i r s hanswer hok _ hpre => ?_⟩, fun ttl => ?_⟩
    · cases r with
      | none => exact hmem_head
      | some ttl =>
        have hguess := hpre.1.resolve_left Bool.false_ne_true
        refine asserted_of (hguess.imp (fun hspared => hspared.2 (some ttl) (Option.some_ne_none ttl))
          mem_checked_note) fun q next heq => ?_
        dsimp only at heq
        split at heq
        · cases heq
          rfl
        · exact hhead _ q next heq
    cases ttl with
    | none => exact hmem
    | some ttl =>
      refine .ite (fun _ => ⟨⟨trivial, fun p i r s hanswer hok _ hpre => ?_⟩, fun ok => ?_⟩)
        fun _ => hf _
      · cases r with
        | false => exact hmem_head
        | true =>
          have hguess := hpre.1.resolve_left Bool.false_ne_true
          exact asserted_of (hguess.imp (fun hspared => hspared.2 true rfl) mem_checked_note)
            (hhead _)
      · exact .ite (fun _ => hf _) fun _ => hmem

/-- The guard is asked for a code that has verified. -/
theorem keeps_consume {server : ServerId} {code : Code} {f : Bool → Procedure Reply}
    (hf : ∀ fresh, (f fresh).Along Idle) :
    (consumeTotpCode server code >>= f).Along (KeepsGuesses totp limits home a) := by
  refine ⟨⟨trivial, fun p i r s _ _ _ hpre => ?_⟩, fun r => ?_⟩
  · cases r with
    | some fresh => exact asserted_idle (hf fresh)
    | none =>
      refine ⟨.inr (.inl ⟨rfl, fun r _ => spared_of_idle (hf r)⟩), fun code' hcode => ?_⟩
      exact hpre.2 code' hcode
  · cases r with
    | some fresh => exact keeps_idle (hf fresh)
    | none =>
      exact ⟨⟨trivial, fun p i r s _ _ _ _ => asserted_idle (hf r)⟩, fun r => keeps_idle (hf r)⟩

theorem spared_consume {server : ServerId} {code : Code} {f : Bool → Procedure Reply}
    (hf : ∀ fresh, (f fresh).Along Idle) : Spared (consumeTotpCode server code >>= f) := by
  refine ⟨rfl, fun r _ => ?_⟩
  cases r with
  | some fresh => exact spared_of_idle (hf fresh)
  | none => exact ⟨rfl, fun r _ => spared_of_idle (hf r)⟩

variable (limits) in
/-- What is done when the guard has answered. -/
def accept (server : ServerId) (deviceRefused : Option String) (fresh : Bool) : Procedure Reply :=
  if !fresh then failTotp limits server "TOTP_ALREADY_USED"
  else do
    let _ ← resetLockout server
    let _ ← command .await
    match deviceRefused with
    | some error => return .rejected error
    | none => return .accepted

theorem idle_failTotp (server : ServerId) (error : String) :
    (failTotp limits server error).Along Idle :=
  idle_recordFailure fun _ => ⟨⟨rfl, rfl⟩, fun _ => trivial⟩

variable (limits) in
theorem idle_accept (server : ServerId) (deviceRefused : Option String) (fresh : Bool) :
    (accept limits server deviceRefused fresh).Along Idle := by
  refine .ite (fun _ => idle_failTotp _ _) fun _ => idle_resetLockout ⟨⟨rfl, rfl⟩, fun r => ?_⟩
  cases deviceRefused <;> trivial

theorem keeps_login2fa (hmax : 0 < limits.maxFails) (server : ServerId) (code : Code)
    (refused deviceRefused : Option String) (ha : a.guesses = true) :
    (login2fa limits server code refused deviceRefused).Along (KeepsGuesses totp limits home a) := by
  refine ⟨⟨trivial, fun p i r s _ _ _ _ => ?_⟩, fun r => ?_⟩
  · cases refused with
    | some error => trivial
    | none => exact ⟨.inl rfl, fun code hcode => by cases hcode⟩
  cases refused with
  | some error => trivial
  | none =>
    refine keeps_checkLockout hmax ha (fun st hst => ?_) (fun st q next heq => ?_) fun st => ?_
    · rw [if_pos hst]
      exact ⟨⟨rfl, rfl⟩, fun r => trivial⟩
    · split at heq <;> cases heq <;> rfl
    · refine .ite (fun _ => ?_) fun _ => ?_
      · exact ⟨⟨trivial, fun p i r s _ _ _ _ => trivial⟩, fun r => trivial⟩
      · refine ⟨⟨trivial, fun p i r s hanswer _ _ _ => ?_⟩, fun r => .ite (fun _ => ?_) fun _ => ?_⟩
        · obtain ⟨hr, rfl⟩ := Prod.ext_iff.1 hanswer
          change verifyTotp totp p.1.store.now code = r at hr
          cases r with
          | false => exact asserted_idle (idle_failTotp _ _)
          | true =>
            refine ⟨.inr (.inl (spared_consume (idle_accept limits server deviceRefused))),
              fun code' hcode => ⟨p.1.store.now, ?_, ?_⟩⟩
            · obtain rfl := Option.some.inj hcode
              exact InsMap.get?_set_self _ _ _
            · obtain rfl := Option.some.inj hcode
              exact hr
        · exact keeps_idle (idle_failTotp _ _)
        · exact keeps_consume (idle_accept limits server deviceRefused)

variable (limits) in
theorem keeps_handle (hmax : 0 < limits.maxFails) (a : Request) :
    (handle limits a).Along (KeepsGuesses totp limits home a) := by
  cases a with
  | login2fa server code refused deviceRefused =>
    exact keeps_login2fa hmax server code refused deviceRefused rfl
  | verify server refused => exact keeps_idle (idle_verify server refused)
  | setLink link => exact keeps_idle ⟨⟨rfl, rfl⟩, fun r => trivial⟩
  | elapse ms => exact keeps_idle ⟨⟨rfl, rfl⟩, fun r => trivial⟩

theorem asserted_handle (a : Request) :
    Asserted (preGuess totp) (fun _ _ _ _ _ => True) i a s h (handle limits a) := by
  cases a with
  | login2fa server code refused deviceRefused => exact ⟨.inl rfl, fun code hcode => by cases hcode⟩
  | verify server refused => exact asserted_idle (idle_verify server refused)
  | setLink link => exact asserted_idle ⟨⟨rfl, rfl⟩, fun r => trivial⟩
  | elapse ms => exact asserted_idle ⟨⟨rfl, rfl⟩, fun r => trivial⟩

end

/-! ## Every run -/

section
variable {totp limits home} {p : State × Guesses} {i j : ℕ} {a b : Request} {q q' : Command}
  {next : q.Result → Procedure Reply} {next' : q'.Result → Procedure Reply}

theorem within_record (hs : Within limits home p.1.store p.2) (hok : Counted limits home p i a q)
    (hpre : preGuess totp i a q next p.1.store p.2) :
    Within limits home (p.1.store.answer totp q).2
      (p.2.record totp limits home p.1.store i a q) := by
  cases q with
  | verifyTotp code =>
    refine hs.compare ((hpre.1.resolve_left Bool.false_ne_true).resolve_left fun hspared => ?_)
    cases hspared.1
  | _ => exact hs.note hok.1 hok.2.1

theorem guards_record (hs : Guards totp home p.1.store p.2) (hok : Counted limits home p i a q)
    (hpre : preGuess totp i a q next p.1.store p.2) :
    Guards totp home (p.1.store.answer totp q).2
      (p.2.record totp limits home p.1.store i a q) := by
  have hconsumes : ∀ code, q.consumes = some code → ∃ t, p.2.attempts.get? i = some (code, t) ∧
      verifyTotp totp t code = true ∧ p.1.store.now ≤ t + PERIOD_MS := by
    intro code hcode
    obtain ⟨t, hattempt, hverify⟩ := hpre.2 code hcode
    exact ⟨t, hattempt, hverify, hok.2.2 (by rw [hcode]; rfl) (code, t) hattempt⟩
  cases q with
  | verifyTotp code => exact hs.compare
  | _ => exact hs.note hok.1 hconsumes

/-- The assertion of a request is kept by the steps of the others. -/
theorem preGuess_other (hji : j ≠ i) {s : Store}
    (hpre : preGuess totp j b q' next' s p.2) (s' : Store) :
    preGuess totp j b q' next' s' (p.2.record totp limits home p.1.store i a q) := by
  cases q with
  | verifyTotp code =>
    refine ⟨hpre.1.imp_right (Or.imp_right (List.mem_erase_of_ne hji).2), fun code' hcode => ?_⟩
    obtain ⟨t, hattempt, hverify⟩ := hpre.2 code' hcode
    exact ⟨t, (InsMap.get?_set_ne _ _ hji).trans hattempt, hverify⟩
  | _ => exact ⟨hpre.1.imp_right (Or.imp_right mem_checked_note), hpre.2⟩

end

/-- As many codes are compared in a window as failures lock the account, at most; the codes that
    are accepted verify, and none is accepted again while it does, for the epoch that it is the
    code of. -/
theorem guesses_of_run (hmax : 0 < limits.maxFails) {p : State × Guesses}
    (hp : (counted totp limits home).Reachable p) :
    (∀ k, p.2.compared.count k ≤ limits.maxFails) ∧
      (∀ x ∈ p.2.accepted, verifyTotp totp x.2 x.1 = true) ∧
      p.2.accepted.Pairwise fun x y => x.1 = y.1 →
        ∀ epoch, totp epoch = x.1 → ¬(Near x.2 epoch ∧ Near y.2 epoch) := by
  have hout := Service.outline (P := fun _ _ _ => True)
    (fun s h => Within limits home s h ∧ Guards totp home s h) (preGuess totp)
    (fun _ _ _ _ _ => True) ?_ (keeps_handle limits hmax) ?_ ?_ ?_ ?_ hp
  · obtain ⟨hwithin, hguards⟩ := hout.holds
    exact ⟨hwithin.bound, hguards.verified, hguards.once.imp fun hlater heq epoch _ =>
      not_near (hlater heq)⟩
  · intro s _
    refine ⟨⟨fun k hk => absurd hk List.not_mem_nil, fun k => Nat.zero_le _, Nat.zero_le _,
      Nat.zero_le _⟩, ⟨fun i x hx => ?_, fun x hx => absurd hx List.not_mem_nil,
      fun x hx => absurd hx List.not_mem_nil, List.Pairwise.nil⟩⟩
    cases hx
  · exact fun p a _ h => ⟨h.holds, asserted_handle a⟩
  · exact fun p a _ _ j b q next _ hpre => hpre
  · intro p i a q next hok h hi _
    have hpre := h.asserted i a q next hi
    exact ⟨within_record h.holds.1 hok hpre, guards_record h.holds.2 hok hpre⟩
  · intro p i a q next _ h _ j b q' next' hji hj
    exact preGuess_other hji (h.asserted j b q' next' hj) _

namespace Sample

def noFails : Store := ⟨none, ∅, ∅, ∅, .up, 0⟩

/-- The first epoch has a code of its own. -/
def codes (epoch : ℕ) : Code := if epoch = 0 then "123456" else "654321"

def twoFails : Limits := ⟨2, 900⟩

def wrong : Request := .login2fa 0 "000000" none none

def right : Request := .login2fa 0 "123456" none none

/-- A request, with so many of its commands. -/
def whole (i : ℕ) (a : Request) (n : ℕ) : List (Event Request) :=
  .receive a :: List.replicate n (.serve i)

/-- Three guesses read the counter, and then compare their codes. -/
def together : List (Event Request) :=
  whole 0 wrong 3 ++ whole 1 wrong 3 ++ whole 2 wrong 3 ++ [.serve 0, .serve 1, .serve 2]

/-- A code is sent again when Redis has failed. -/
def again : List (Event Request) :=
  whole 0 right 7 ++ whole 1 (.setLink .down) 1 ++ whole 2 right 9

/-- Two guesses at once, the second of which locks the account; when the window is over, a code is
    accepted, and is refused when it is sent again. -/
def inTurn : List (Event Request) :=
  whole 0 wrong 3 ++ whole 1 wrong 3 ++ [.serve 0, .serve 1, .serve 1, .serve 0] ++
    whole 2 wrong 4 ++ whole 3 (.verify 0 none) 3 ++ whole 4 (.elapse 900000) 1 ++
    whole 5 (.login2fa 0 "654321" none none) 7 ++ whole 6 (.login2fa 0 "654321" none none) 7

end Sample

section
open Sample

/-- More codes are compared before the first failure is recorded than lock the account; and a code
    is accepted a second time at the time at which it was accepted. -/
theorem guessed_beyond :
    (∃ p, ((lockout codes twoFails).recorded (guesses codes twoFails none) fun _ => True).run
      (.start noFails, (guesses codes twoFails none).start) together = some p ∧
        p.2.compared = [0, 0, 0]) ∧
    ∃ p, ((lockout codes twoFails).recorded (guesses codes twoFails none) fun _ => True).run
      (.start noFails, (guesses codes twoFails none).start) again = some p ∧
        p.2.accepted = [("123456", 0), ("123456", 0)] := by
  refine ⟨Option.map_eq_some_iff.1 ?_, Option.map_eq_some_iff.1 ?_⟩
  all_goals decide

theorem guesses_of_run_inTurn :
    ∃ p, (counted codes twoFails none).run
      (.start noFails, (guesses codes twoFails none).start) inTurn = some p ∧
      (∀ k, p.2.compared.count k ≤ 2) ∧
      (∀ x ∈ p.2.accepted, verifyTotp codes x.2 x.1 = true) ∧
      p.2.accepted.Pairwise fun x y => x.1 = y.1 →
        ∀ epoch, codes epoch = x.1 → ¬(Near x.2 epoch ∧ Near y.2 epoch) := by
  obtain ⟨p, hp, hreachable⟩ := Machine.exists_reachable (by decide :
    ((counted codes twoFails none).run
      (.start noFails, (guesses codes twoFails none).start) inTurn).isSome)
    ⟨⟨noFails, trivial, rfl⟩, rfl⟩
  exact ⟨p, hp, guesses_of_run codes twoFails none (by decide) hreachable⟩

end

end OneToThree.Lockout

import Mathlib.Data.Finset.Card
import Mathlib.Data.List.Nodup
import OneToThree.Lib.InsMap

/-!
# The ledger of consumed one-time prekeys

The ids of the one-time prekeys that sessions were accepted with, for each owner and device. An
id is added at the end, and the oldest ones leave from the front (`LEDGER_CAP`). An id that is
there already stays where it is.

The ledger is an array in JSON, which has no number that is not finite: such an id is written as
`null`, and left out by the next reading.

* `Kept`: what was added behind an id has been marked since.
* `remembers`: the ledger is bounded and has no duplicates, and it keeps an id, from the moment
  that it is added, until as many others have been marked as it has room for.
* `remarked_forgotten`: marking an id anew does not make it newer.
-/

namespace OneToThree.OtpLedger

/-- The numbers of the language: the finite ones, up to the sign of zero, and the others. -/
inductive JsNum (F : Type)
  | finite (x : F)
  | infinity (negative : Bool)
  | NaN
  deriving DecidableEq

variable {F : Type}

/-- What `JSON.stringify` makes of a number in an array, where `none` is `null`. -/
def JsNum.toJson : JsNum F → Option F
  | .finite x => some x
  | .infinity _ => none
  | .NaN => none

/-- The texts of `localStorage`, by the arrays that `JSON.parse` makes of them. -/
abbrev LocalStorage (F : Type) := InsMap String (List (Option F))

def LEDGER_KEY (ownerId deviceId : String) : String :=
  "p13:dr-otp-consumed:" ++ ownerId ++ ":" ++ deviceId

def LEDGER_CAP : ℕ := 4096

section Ledger

variable (ls : LocalStorage F) (ownerId deviceId : String)

/-- The array that is stored. -/
def stored : List (Option F) := (ls.get? (LEDGER_KEY ownerId deviceId)).getD []

/-- The entries of the array that are numbers. -/
def readLedger : List (JsNum F) :=
  (stored ls ownerId deviceId).filterMap fun n => n.map .finite

def writeLedger (ids : List (JsNum F)) : LocalStorage F :=
  let bounded := if ids.length > LEDGER_CAP then ids.drop (ids.length - LEDGER_CAP) else ids
  ls.set (LEDGER_KEY ownerId deviceId) (bounded.map JsNum.toJson)

variable [DecidableEq F]

def isOtpConsumed (otpId : JsNum F) : Bool := otpId ∈ readLedger ls ownerId deviceId

def markOtpConsumed (otpId : JsNum F) : LocalStorage F :=
  let ids := readLedger ls ownerId deviceId
  if otpId ∈ ids then ls else writeLedger ls ownerId deviceId (ids ++ [otpId])

end Ledger

/-- A call of `markOtpConsumed`. -/
structure Mark (F : Type) where
  ownerId : String
  deviceId : String
  otpId : JsNum F
  deriving DecidableEq

/-- The ledger that a call is about. -/
def Mark.key (m : Mark F) : String := LEDGER_KEY m.ownerId m.deviceId

/-- Calls, one after the other. -/
def markAll [DecidableEq F] (ls : LocalStorage F) (marks : List (Mark F)) : LocalStorage F :=
  marks.foldl (fun ls m => markOtpConsumed ls m.ownerId m.deviceId m.otpId) ls

/-- The ids that calls mark in a ledger, other than `x`. -/
def others [DecidableEq F] (key : String) (x : JsNum F) (marks : List (Mark F)) :
    Finset (JsNum F) :=
  ((marks.filter fun m => m.key = key).map Mark.otpId).toFinset.erase x

variable {ls : LocalStorage F} {ownerId deviceId : String} {marks : List (Mark F)} {m : Mark F}
  {x z : JsNum F}

/-! ## What is stored -/

theorem LEDGER_CAP_pos : 0 < LEDGER_CAP := by decide

/-- The ledger is the newest ids, the one that is added among them. -/
theorem stored_writeLedger (ids : List (JsNum F)) :
    stored (writeLedger ls ownerId deviceId (ids ++ [z])) ownerId deviceId =
      (ids.drop (ids.length + 1 - LEDGER_CAP)).map JsNum.toJson ++ [z.toJson] := by
  have hle : ids.length + 1 - LEDGER_CAP ≤ ids.length :=
    Nat.sub_le_of_le_add (Nat.add_le_add_left LEDGER_CAP_pos _)
  simp only [stored, writeLedger, InsMap.get?_set_self, Option.getD_some, List.length_append,
    List.length_singleton]
  split_ifs with hlen
  · rw [List.drop_append_of_le_length hle, List.map_append, List.map_singleton]
  · rw [Nat.sub_eq_zero_of_le (Nat.le_of_not_lt hlen), List.drop_zero, List.map_append,
      List.map_singleton]

theorem filterMap_toJson {ids : List (JsNum F)} (h : ∀ y ∈ ids, ∃ n, y = .finite n) :
    (ids.map JsNum.toJson).filterMap (fun n => n.map JsNum.finite) = ids := by
  induction ids with
  | nil => rfl
  | cons y ids ih =>
    obtain ⟨n, rfl⟩ := h y List.mem_cons_self
    exact congrArg (JsNum.finite n :: ·) (ih fun y hy => h y (List.mem_cons_of_mem _ hy))

theorem finite_of_mem_readLedger (h : x ∈ readLedger ls ownerId deviceId) :
    ∃ n, x = .finite n := by
  obtain ⟨_, _, h⟩ := List.mem_filterMap.1 h
  obtain ⟨n, _, rfl⟩ := Option.map_eq_some_iff.1 h
  exact ⟨n, rfl⟩

/-- What is left of an id that is written and read again. -/
def JsNum.reread (z : JsNum F) : List (JsNum F) := (z.toJson.map JsNum.finite).toList

@[simp] theorem JsNum.reread_finite (n : F) : (JsNum.finite n).reread = [.finite n] := rfl

theorem JsNum.mem_reread (h : x ∈ z.reread) : x = z := by
  cases z with
  | finite n => exact List.mem_singleton.1 h
  | infinity negative => cases h
  | NaN => cases h

/-- The array is bounded, and has no entry twice. -/
structure Sound (cells : List (Option F)) : Prop where
  nodup : cells.Nodup
  length_le : cells.length ≤ LEDGER_CAP

theorem nodup_readLedger (h : Sound (stored ls ownerId deviceId)) :
    (readLedger ls ownerId deviceId).Nodup := by
  refine List.Nodup.filterMap (fun a b y ha hb => ?_) h.nodup
  obtain ⟨n, rfl, rfl⟩ := Option.map_eq_some_iff.1 ha
  obtain ⟨n', rfl, hn⟩ := Option.map_eq_some_iff.1 hb
  rw [JsNum.finite.inj hn]

theorem toJson_not_mem (hz : z ∉ readLedger ls ownerId deviceId) (k : ℕ) :
    z.toJson ∉ ((readLedger ls ownerId deviceId).drop k).map JsNum.toJson := by
  intro h
  obtain ⟨y, hy, hyz⟩ := List.mem_map.1 h
  have hy := List.mem_of_mem_drop hy
  obtain ⟨n, rfl⟩ := finite_of_mem_readLedger hy
  cases z with
  | finite n' => exact hz (Option.some.inj hyz ▸ hy)
  | infinity negative => cases hyz
  | NaN => cases hyz

theorem sound_empty : Sound (stored (∅ : LocalStorage F) ownerId deviceId) :=
  ⟨List.nodup_nil, Nat.zero_le _⟩

/-! ## One call -/

variable [DecidableEq F]

theorem readLedger_mark : readLedger (markOtpConsumed ls ownerId deviceId z) ownerId deviceId =
    if z ∈ readLedger ls ownerId deviceId then readLedger ls ownerId deviceId
    else (readLedger ls ownerId deviceId).drop
      ((readLedger ls ownerId deviceId).length + 1 - LEDGER_CAP) ++ z.reread := by
  rw [markOtpConsumed]
  split_ifs with hz
  · rfl
  · rw [readLedger, stored_writeLedger, List.filterMap_append, filterMap_toJson]
    · cases z with
      | finite n => rfl
      | infinity negative => rfl
      | NaN => rfl
    · exact fun y hy => finite_of_mem_readLedger (List.mem_of_mem_drop hy)

theorem stored_mark_ne {owner device : String}
    (h : LEDGER_KEY ownerId deviceId ≠ LEDGER_KEY owner device) (ls : LocalStorage F)
    (z : JsNum F) :
    stored (markOtpConsumed ls owner device z) ownerId deviceId = stored ls ownerId deviceId := by
  rw [markOtpConsumed]
  split_ifs
  · rfl
  · rw [writeLedger, stored, InsMap.get?_set_ne _ _ h, stored]

/-- A call is for a ledger by its key. -/
theorem mark_congr {owner device : String}
    (h : LEDGER_KEY owner device = LEDGER_KEY ownerId deviceId) :
    markOtpConsumed ls owner device z = markOtpConsumed ls ownerId deviceId z := by
  have hread : readLedger ls owner device = readLedger ls ownerId deviceId := by
    rw [readLedger, stored, h, readLedger, stored]
  rw [markOtpConsumed, markOtpConsumed, writeLedger, writeLedger, hread, h]

@[simp] theorem markAll_nil : markAll ls [] = ls := rfl

@[simp] theorem markAll_cons :
    markAll ls (m :: marks) = markAll (markOtpConsumed ls m.ownerId m.deviceId m.otpId) marks := rfl

theorem markAll_append {marks' : List (Mark F)} :
    markAll ls (marks ++ marks') = markAll (markAll ls marks) marks' := List.foldl_append

theorem Sound.mark (h : Sound (stored ls ownerId deviceId)) :
    Sound (stored (markOtpConsumed ls ownerId deviceId z) ownerId deviceId) := by
  rw [markOtpConsumed]
  split_ifs with hz
  · exact h
  · rw [stored_writeLedger]
    refine ⟨List.nodup_append.2 ⟨?_, List.nodup_singleton _, ?_⟩, ?_⟩
    · refine ((nodup_readLedger h).sublist (List.drop_sublist _ _)).map_on fun y hy y' hy' heq => ?_
      obtain ⟨n, rfl⟩ := finite_of_mem_readLedger (List.mem_of_mem_drop hy)
      obtain ⟨n', rfl⟩ := finite_of_mem_readLedger (List.mem_of_mem_drop hy')
      rw [Option.some.inj heq]
    · rintro y hy y' hy' rfl
      rw [List.mem_singleton.1 hy'] at hy
      exact toJson_not_mem hz _ hy
    · have hcap := LEDGER_CAP_pos
      simp only [List.length_append, List.length_map, List.length_drop, List.length_singleton]
      omega

theorem Sound.markAll (h : Sound (stored ls ownerId deviceId)) :
    Sound (stored (markAll ls marks) ownerId deviceId) := by
  induction marks generalizing ls with
  | nil => exact h
  | cons m marks ih =>
    rw [markAll_cons]
    refine ih ?_
    by_cases hkey : m.key = LEDGER_KEY ownerId deviceId
    · rw [mark_congr hkey]
      exact h.mark
    · rw [stored_mark_ne fun hk => hkey hk.symm]
      exact h

/-! ## What is remembered -/

/-- `x` is in a ledger, and what is behind it is among `since`. -/
def Kept (x : JsNum F) (since : Finset (JsNum F)) (ids : List (JsNum F)) : Prop :=
  ∃ older newer, ids = older ++ x :: newer ∧ ∀ y ∈ newer, y ∈ since

omit [DecidableEq F] in
theorem Kept.mem {since : Finset (JsNum F)} {ids : List (JsNum F)} (h : Kept x since ids) :
    x ∈ ids := by
  obtain ⟨older, newer, rfl, _⟩ := h
  exact List.mem_append_right _ List.mem_cons_self

omit [DecidableEq F] in
theorem Kept.mono {since since' : Finset (JsNum F)} {ids : List (JsNum F)}
    (h : Kept x since ids) (hsub : since ⊆ since') : Kept x since' ids := by
  obtain ⟨older, newer, hids, hnewer⟩ := h
  exact ⟨older, newer, hids, fun y hy => hsub (hnewer y hy)⟩

/-- An id is pushed out only by the last one of as many others as there is room for. -/
theorem Kept.mark {since : Finset (JsNum F)} (hs : Sound (stored ls ownerId deviceId))
    (h : Kept x since (readLedger ls ownerId deviceId))
    (hroom : (insert z since).card < LEDGER_CAP) :
    Kept x (insert z since)
      (readLedger (markOtpConsumed ls ownerId deviceId z) ownerId deviceId) := by
  rw [readLedger_mark]
  split_ifs with hz
  · exact h.mono (Finset.subset_insert z since)
  have hnodup := nodup_readLedger hs
  obtain ⟨older, newer, hids, hnewer⟩ := h
  rw [hids] at hz hnodup ⊢
  -- What is behind `x` has been marked since, and so has `z`.
  have hlen : (z :: newer).length ≤ (insert z since).card := by
    have hz' : z ∉ newer := fun hmem => hz (List.mem_append_right _ (List.mem_cons_of_mem _ hmem))
    have hnewer' : newer.Nodup := (List.nodup_cons.1 (List.nodup_append.1 hnodup).2.1).2
    rw [← List.toFinset_card_of_nodup (List.nodup_cons.2 ⟨hz', hnewer'⟩)]
    refine Finset.card_le_card fun y hy => ?_
    rcases List.mem_cons.1 (List.mem_toFinset.1 hy) with rfl | hy
    · exact Finset.mem_insert_self _ _
    · exact Finset.mem_insert_of_mem (hnewer y hy)
  have hdrop : (older ++ x :: newer).length + 1 - LEDGER_CAP ≤ older.length := by
    simp only [List.length_cons, List.length_append] at hlen ⊢
    omega
  refine ⟨older.drop ((older ++ x :: newer).length + 1 - LEDGER_CAP), newer ++ z.reread, ?_, ?_⟩
  · rw [List.drop_append_of_le_length hdrop, List.append_assoc, List.cons_append]
  · intro y hy
    rcases List.mem_append.1 hy with hy | hy
    · exact Finset.mem_insert_of_mem (hnewer y hy)
    · exact JsNum.mem_reread hy ▸ Finset.mem_insert_self _ _

/-- An id is in the ledger that it is added to. -/
theorem kept_of_mark {n : F} (h : isOtpConsumed ls ownerId deviceId (.finite n) = false) :
    Kept (.finite n) ∅
      (readLedger (markOtpConsumed ls ownerId deviceId (.finite n)) ownerId deviceId) := by
  rw [readLedger_mark, if_neg (of_decide_eq_false h), JsNum.reread_finite]
  exact ⟨_, [], rfl, fun y hy => absurd hy List.not_mem_nil⟩

theorem Kept.markAll {since : Finset (JsNum F)} (hs : Sound (stored ls ownerId deviceId))
    (h : Kept x since (readLedger ls ownerId deviceId))
    (hroom : (since ∪ others (LEDGER_KEY ownerId deviceId) x marks).card < LEDGER_CAP) :
    Kept x (since ∪ others (LEDGER_KEY ownerId deviceId) x marks)
      (readLedger (markAll ls marks) ownerId deviceId) := by
  induction marks generalizing ls since with
  | nil => exact h.mono Finset.subset_union_left
  | cons m marks ih =>
    by_cases hkey : m.key = LEDGER_KEY ownerId deviceId
    · rw [markAll_cons, mark_congr hkey]
      by_cases hx : m.otpId = x
      · -- It is there already, and the ledger is left as it is.
        have hothers : others (LEDGER_KEY ownerId deviceId) x (m :: marks) =
            others (LEDGER_KEY ownerId deviceId) x marks := by
          simp [others, hkey, hx]
        rw [hothers] at hroom ⊢
        have hmark : markOtpConsumed ls ownerId deviceId m.otpId = ls := by
          rw [markOtpConsumed, if_pos (hx ▸ h.mem)]
        rw [hmark]
        exact ih hs h hroom
      · have hothers : since ∪ others (LEDGER_KEY ownerId deviceId) x (m :: marks) =
            insert m.otpId since ∪ others (LEDGER_KEY ownerId deviceId) x marks := by
          simp [others, hkey, Finset.erase_insert_of_ne hx, Finset.insert_union]
        rw [hothers] at hroom ⊢
        refine ih hs.mark (h.mark hs ?_) hroom
        exact Nat.lt_of_le_of_lt (Finset.card_le_card Finset.subset_union_left) hroom
    · have hothers : others (LEDGER_KEY ownerId deviceId) x (m :: marks) =
          others (LEDGER_KEY ownerId deviceId) x marks := by
        simp [others, hkey]
      rw [hothers] at hroom ⊢
      have hstored := stored_mark_ne (fun hk => hkey hk.symm) ls m.otpId
      rw [markAll_cons]
      refine ih (hstored ▸ hs) ?_ hroom
      rw [readLedger, hstored]
      exact h

/-- The ledger after any calls. -/
theorem remembers (marks : List (Mark F)) (ownerId deviceId : String) :
    (stored (markAll ∅ marks) ownerId deviceId).Nodup ∧
      (stored (markAll ∅ marks) ownerId deviceId).length ≤ LEDGER_CAP ∧
      ∀ before after n, marks = before ++ ⟨ownerId, deviceId, .finite n⟩ :: after →
        isOtpConsumed (markAll ∅ before) ownerId deviceId (.finite n) = false →
        (others (LEDGER_KEY ownerId deviceId) (.finite n) after).card < LEDGER_CAP →
        isOtpConsumed (markAll ∅ marks) ownerId deviceId (.finite n) = true := by
  have hs : Sound (stored (markAll ∅ marks) ownerId deviceId) := sound_empty.markAll
  refine ⟨hs.nodup, hs.length_le, ?_⟩
  rintro before after n rfl hnew hroom
  rw [markAll_append, markAll_cons]
  have hkept : Kept (.finite n) (∅ ∪ others (LEDGER_KEY ownerId deviceId) (.finite n) after) _ :=
    (kept_of_mark hnew).markAll sound_empty.markAll.mark (by rwa [Finset.empty_union])
  exact decide_eq_true hkept.mem

/-! ## A full ledger -/

/-- A mark of the sample: one ledger, with natural numbers for ids. -/
def sampleMark (n : ℕ) : Mark ℕ := ⟨"user-a", "device-1", .finite n⟩

theorem remembers_sample :
    isOtpConsumed (markAll ∅ [sampleMark 7, sampleMark 8]) "user-a" "device-1" (.finite 7) = true :=
  (remembers [sampleMark 7, sampleMark 8] "user-a" "device-1").2.2 [] [sampleMark 8] 7 rfl rfl
    (by decide)

/-- Ids that all find room are in the ledger in their order. -/
theorem readLedger_markAll {ids : List ℕ} (hids : ids.Nodup) (hlen : ids.length ≤ LEDGER_CAP) :
    readLedger (markAll ∅ (ids.map sampleMark)) "user-a" "device-1" = ids.map .finite := by
  induction ids using List.reverseRecOn with
  | nil => rfl
  | append_singleton ids n ih =>
    obtain ⟨hids, -, hn⟩ := List.nodup_append.1 hids
    rw [List.length_append, List.length_singleton] at hlen
    have hfresh : JsNum.finite n ∉ ids.map JsNum.finite := by
      intro hmem
      obtain ⟨n', hn', heq⟩ := List.mem_map.1 hmem
      exact hn n' hn' n (List.mem_singleton_self n) (JsNum.finite.inj heq)
    rw [List.map_append, markAll_append, List.map_singleton, markAll_cons, markAll_nil]
    rw [sampleMark, readLedger_mark, ih hids (Nat.le_of_succ_le hlen), if_neg hfresh,
      List.length_map, Nat.sub_eq_zero_of_le hlen, List.drop_zero, List.map_append]
    rfl

/-- A full ledger has no room for its oldest id and a new one. -/
theorem not_mem_of_full {ids : List (JsNum F)} (hs : Sound (stored ls ownerId deviceId))
    (hids : readLedger ls ownerId deviceId = x :: ids) (hfull : (x :: ids).length = LEDGER_CAP)
    (hz : z ∉ x :: ids) :
    x ∉ readLedger (markOtpConsumed ls ownerId deviceId z) ownerId deviceId := by
  have hnodup := nodup_readLedger hs
  rw [hids] at hnodup
  rw [readLedger_mark, hids, if_neg hz, hfull, Nat.add_sub_cancel_left, List.drop_one,
    List.tail_cons]
  intro h
  rcases List.mem_append.1 h with h | h
  · exact (List.nodup_cons.1 hnodup).1 h
  · exact hz (JsNum.mem_reread h ▸ List.mem_cons_self)

/-- An id that is marked once more is forgotten one mark later; `NaN` is at once. -/
theorem remarked_forgotten :
    (∃ before after : List (Mark ℕ), others (sampleMark 0).key (.finite 0) after = {.finite 4096} ∧
      isOtpConsumed (markAll ∅ (before ++ sampleMark 0 :: after)) "user-a" "device-1"
        (.finite 0) = false) ∧
    isOtpConsumed (markAll ∅ [(⟨"user-a", "device-1", .NaN⟩ : Mark ℕ)]) "user-a" "device-1"
      .NaN = false := by
  refine ⟨⟨(List.range LEDGER_CAP).map sampleMark, [sampleMark 4096], by decide, ?_⟩, by decide⟩
  have hread := readLedger_markAll (List.nodup_range (n := LEDGER_CAP))
    (Nat.le_of_eq List.length_range)
  -- The ids from 0 on fill the ledger, 0 in front.
  have hrange : (List.range LEDGER_CAP).map JsNum.finite =
      .finite 0 :: (List.range 4095).map fun n => .finite (n + 1) := by
    rw [LEDGER_CAP, List.range_succ_eq_map, List.map_cons, List.map_map]
    rfl
  rw [hrange] at hread
  rw [markAll_append, markAll_cons, markAll_cons, markAll_nil]
  refine decide_eq_false ?_
  have hmark : markOtpConsumed (markAll ∅ ((List.range LEDGER_CAP).map sampleMark)) "user-a"
      "device-1" (.finite 0) = markAll ∅ ((List.range LEDGER_CAP).map sampleMark) := by
    rw [markOtpConsumed, if_pos (hread ▸ List.mem_cons_self)]
  simp only [sampleMark] at hmark ⊢
  rw [hmark]
  refine not_mem_of_full sound_empty.markAll hread ?_ ?_
  · simp [LEDGER_CAP]
  · simp

end OneToThree.OtpLedger

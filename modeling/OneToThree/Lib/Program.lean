import Mathlib.Order.Defs.PartialOrder
import Mathlib.Tactic.SplitIfs

/-!
# Programs that ask

A program either is done or asks a question and goes on with the answer: the code
of a process between two of its interactions with the rest of the system, whatever
answers it and whatever happens in between.

* `Program.exec` runs a program alone, against a function that answers.
* `Program.Meets` is rely-guarantee reasoning about one program among others. What
  is known of the system is a *world*, which only grows. A `Contract` says, in a
  world, which questions a program may ask (what it guarantees) and what it may
  assume of the answers (what it relies on); a question may be annotated with what
  it is for. `Meets.mono` is stability: what the others do meanwhile does not matter.
-/

/-- A program asking questions of the type `Q`, answered in `R`, and returning an `α`. -/
inductive Program (Q : Type) (R : Q → Type) (α : Type)
  | done (a : α)
  | ask (q : Q) (next : R q → Program Q R α)

namespace Program

variable {Q : Type} {R : Q → Type} {α β : Type}

def bind : Program Q R α → (α → Program Q R β) → Program Q R β
  | done a, f => f a
  | ask q next, f => ask q fun r => (next r).bind f

instance : Monad (Program Q R) where
  pure := done
  bind := bind

/-- Asking a question for its answer. -/
def request (q : Q) : Program Q R (R q) := ask q done

@[simp] theorem pure_eq (a : α) : (pure a : Program Q R α) = done a := rfl

@[simp] theorem done_bind (a : α) (f : α → Program Q R β) : (done a >>= f) = f a := rfl

@[simp] theorem ask_bind (q : Q) (next : R q → Program Q R α) (f : α → Program Q R β) :
    (ask q next >>= f) = ask q fun r => next r >>= f := rfl

@[simp] theorem request_bind (q : Q) (f : R q → Program Q R β) : (request q >>= f) = ask q f := rfl

protected theorem bind_assoc {γ : Type} (p : Program Q R α) (f : α → Program Q R β)
    (g : β → Program Q R γ) : (p >>= f) >>= g = p >>= fun a => f a >>= g := by
  induction p with
  | done a => rfl
  | ask q next ih => exact congrArg (ask q) (funext ih)

protected theorem bind_pure (p : Program Q R α) : p >>= pure = p := by
  induction p with
  | done a => rfl
  | ask q next ih => exact congrArg (ask q) (funext ih)

/-! ## Running alone -/

/-- Running a program alone on a state, each question being answered by `answer`. -/
def exec {S : Type} (answer : S → (q : Q) → R q × S) : Program Q R α → S → α × S
  | done a, s => (a, s)
  | ask q next, s => exec answer (next (answer s q).1) (answer s q).2

section
variable {S : Type} {answer : S → (q : Q) → R q × S}

@[simp] theorem exec_done (a : α) (s : S) : (done a : Program Q R α).exec answer s = (a, s) := rfl

@[simp] theorem exec_ask (q : Q) (next : R q → Program Q R α) (s : S) :
    (ask q next).exec answer s = (next (answer s q).1).exec answer (answer s q).2 := rfl

theorem exec_bind (p : Program Q R α) (f : α → Program Q R β) (s : S) :
    (p >>= f).exec answer s = (f (p.exec answer s).1).exec answer (p.exec answer s).2 := by
  induction p generalizing s with
  | done a => rfl
  | ask q next ih => exact ih _ _

end

/-! ## Along a program -/

/-- What holds of every question of a program, and of how the program goes on from it,
    whatever the answers. -/
def Along (P : (q : Q) → (R q → Program Q R α) → Prop) : Program Q R α → Prop
  | done _ => True
  | ask q next => P q next ∧ ∀ r, (next r).Along P

section
variable {P : (q : Q) → (R q → Program Q R α) → Prop}

@[simp] theorem along_done (a : α) : (done a : Program Q R α).Along P := trivial

theorem Along.request {q : Q} {f : R q → Program Q R α} (hq : P q f) (hf : ∀ r, (f r).Along P) :
    (Program.request q >>= f).Along P := ⟨hq, hf⟩

theorem Along.ite {c : Prop} [Decidable c] {p p' : Program Q R α} (h : c → p.Along P)
    (h' : ¬c → p'.Along P) : (if c then p else p').Along P := by
  split_ifs with hc
  · exact h hc
  · exact h' hc

/-- What holds of every question holds along every program. -/
theorem along_of_forall (hP : ∀ q next, P q next) (p : Program Q R α) : p.Along P := by
  induction p with
  | done a => trivial
  | ask q next ih => exact ⟨hP q next, ih⟩

end

/-- What every question that `P` allows keeps, a program with such questions keeps. -/
theorem Along.exec {S : Type} {answer : S → (q : Q) → R q × S} {P : Q → Prop} {I : S → Prop}
    {p : Program Q R α} (hp : p.Along fun q _ => P q)
    (hkeep : ∀ s q, P q → I s → I (answer s q).2) {s : S} (hs : I s) : I (p.exec answer s).2 := by
  induction p generalizing s with
  | done a => exact hs
  | ask q next ih => exact ih _ (hp.2 _) (hkeep s q hp.1 hs)

/-- The rule of consequence. -/
theorem Along.imp {P P' : (q : Q) → (R q → Program Q R α) → Prop} {p : Program Q R α}
    (hP : ∀ q next, P q next → P' q next) (h : p.Along P) : p.Along P' := by
  induction p with
  | done a => trivial
  | ask q next ih => exact ⟨hP q next h.1, fun r => ih r (h.2 r)⟩

theorem Along.and {P P' : (q : Q) → (R q → Program Q R α) → Prop} {p : Program Q R α}
    (h : p.Along P) (h' : p.Along P') : p.Along fun q next => P q next ∧ P' q next := by
  induction p with
  | done a => trivial
  | ask q next ih => exact ⟨⟨h.1, h'.1⟩, fun r => ih r (h.2 r) (h'.2 r)⟩

/-- The rule of sequence. -/
theorem Along.bind {P : (q : Q) → (R q → Program Q R α) → Prop} {p : Program Q R β}
    {f : β → Program Q R α} (hp : p.Along fun q next => P q fun r => next r >>= f)
    (hf : ∀ b, (f b).Along P) : (p >>= f).Along P := by
  induction p with
  | done b => exact hf b
  | ask q next ih => exact ⟨hp.1, fun r => ih r (hp.2 r)⟩

/-- What holds of every value that a program may return, whatever the answers. -/
def Ends (post : α → Prop) : Program Q R α → Prop
  | done a => post a
  | ask _ next => ∀ r, (next r).Ends post

theorem Ends.bind {post : α → Prop} (p : Program Q R β) {f : β → Program Q R α}
    (hf : ∀ b, (f b).Ends post) : (p >>= f).Ends post := by
  induction p with
  | done b => exact hf b
  | ask q next ih => exact ih

/-- Whatever the answers, the program asks a question that `φ` holds of. -/
def Asks (φ : Q → Prop) : Program Q R α → Prop
  | done _ => False
  | ask q next => φ q ∨ ∀ r, (next r).Asks φ

section
variable {φ : Q → Prop}

@[simp] theorem asks_done (a : α) : ¬(done a : Program Q R α).Asks φ := id

@[simp] theorem asks_ask {q : Q} {next : R q → Program Q R α} :
    (ask q next).Asks φ ↔ φ q ∨ ∀ r, (next r).Asks φ := Iff.rfl

theorem Asks.imp {φ' : Q → Prop} (hφ : ∀ q, φ q → φ' q) {p : Program Q R α} (h : p.Asks φ) :
    p.Asks φ' := by
  induction p with
  | done b => exact h
  | ask q next ih => exact Or.imp (hφ q) (fun h r => ih r (h r)) h

theorem Asks.bind_left {p : Program Q R β} {f : β → Program Q R α} (h : p.Asks φ) :
    (p >>= f).Asks φ := by
  induction p with
  | done b => exact h.elim
  | ask q next ih => exact h.imp_right fun h r => ih r (h r)

theorem Asks.bind_right {p : Program Q R β} {f : β → Program Q R α} (hf : ∀ b, (f b).Asks φ) :
    (p >>= f).Asks φ := by
  induction p with
  | done b => exact hf b
  | ask q next ih => exact .inr ih

/-- What holds along a program holds of a question that it asks. -/
theorem Asks.exists_along [∀ q, Nonempty (R q)] {P : (q : Q) → (R q → Program Q R α) → Prop}
    {p : Program Q R α} (h : p.Asks φ) (hp : p.Along P) : ∃ q next, φ q ∧ P q next := by
  induction p with
  | done a => exact h.elim
  | ask q next ih =>
    rcases h with h | h
    · exact ⟨q, next, h, hp.1⟩
    · obtain ⟨r⟩ := (inferInstance : Nonempty (R q))
      exact ih r (h r) (hp.2 r)

end

/-- Whatever the answers, every question is allowed by what was learnt from the answers
    before it. -/
def Heeds {G : Type} (allowed : G → Q → Prop) (learn : G → (q : Q) → R q → G) :
    Program Q R α → G → Prop
  | done _, _ => True
  | ask q next, g => allowed g q ∧ ∀ r, (next r).Heeds allowed learn (learn g q r)

section
variable {G : Type} {allowed : G → Q → Prop} {learn : G → (q : Q) → R q → G} {g : G}

theorem Heeds.request {q : Q} {f : R q → Program Q R α} (hq : allowed g q)
    (hf : ∀ r, (f r).Heeds allowed learn (learn g q r)) :
    (Program.request q >>= f).Heeds allowed learn g := ⟨hq, hf⟩

/-- The rule of sequence. -/
theorem Heeds.bind {p : Program Q R β} {f : β → Program Q R α} (hp : p.Heeds allowed learn g)
    (hf : ∀ g b, (f b).Heeds allowed learn g) : (p >>= f).Heeds allowed learn g := by
  induction p generalizing g with
  | done b => exact hf g b
  | ask q next ih => exact ⟨hp.1, fun r => ih r (hp.2 r)⟩

end

/-- As `Heeds`, and the value that is returned is right by what was learnt. -/
def Leads {G : Type} (allowed : G → Q → Prop) (learn : G → (q : Q) → R q → G)
    (post : G → α → Prop) : Program Q R α → G → Prop
  | done a, g => post g a
  | ask q next, g => allowed g q ∧ ∀ r, (next r).Leads allowed learn post (learn g q r)

section
variable {G : Type} {allowed : G → Q → Prop} {learn : G → (q : Q) → R q → G} {g : G}
  {post : G → α → Prop}

@[simp] theorem leads_ask {q : Q} {next : R q → Program Q R α} :
    (ask q next).Leads allowed learn post g ↔
      allowed g q ∧ ∀ r, (next r).Leads allowed learn post (learn g q r) := Iff.rfl

/-- The rule of sequence. -/
theorem Leads.bind {mid : G → β → Prop} {p : Program Q R β} {f : β → Program Q R α}
    (hp : p.Leads allowed learn mid g)
    (hf : ∀ g b, mid g b → (f b).Leads allowed learn post g) :
    (p >>= f).Leads allowed learn post g := by
  induction p generalizing g with
  | done b => exact hf g b hp
  | ask q next ih => exact ⟨hp.1, fun r => ih r (hp.2 r)⟩

end

/-! ## Contracts -/

/-- A contract on questions: which ones may be asked in a world, with which annotation,
    and what may be assumed of the answers. -/
structure Contract (W Q : Type) (R : Q → Type) (G : Type) where
  allowed : W → Q → G → Prop
  answered : W → (q : Q) → G → R q → Prop

variable {W G : Type} [Preorder W]

/-- In the world `w`, the program keeps to the contract until it is done, as the world
    grows, and then returns a value that `post` holds of. -/
def Meets (C : Contract W Q R G) (post : W → α → Prop) : Program Q R α → W → Prop
  | done a, w => post w a
  | ask q next, w => ∃ g, C.allowed w q g ∧
      ∀ w', w ≤ w' → ∀ r, C.answered w' q g r → Meets C post (next r) w'

variable {C : Contract W Q R G} {post : W → α → Prop}

/-- What a program may ask is stable, if the guarantees of the contract are. -/
theorem Meets.mono {p : Program Q R α} {w w' : W}
    (hallowed : ∀ w w' q g, w ≤ w' → C.allowed w q g → C.allowed w' q g)
    (hpost : ∀ w w' a, w ≤ w' → post w a → post w' a) (hle : w ≤ w') (h : p.Meets C post w) :
    p.Meets C post w' := by
  cases p with
  | done a => exact hpost w w' a hle h
  | ask q next =>
    obtain ⟨g, hq, hnext⟩ := h
    exact ⟨g, hallowed w w' q g hle hq, fun w'' hle' => hnext w'' (le_trans hle hle')⟩

/-- The rule of sequence. -/
theorem Meets.bind {mid : W → β → Prop} {p : Program Q R β} {f : β → Program Q R α} {w : W}
    (hp : p.Meets C mid w)
    (hf : ∀ w', w ≤ w' → ∀ b, mid w' b → (f b).Meets C post w') : (p >>= f).Meets C post w := by
  induction p generalizing w with
  | done b => exact hf w (le_refl w) b hp
  | ask q next ih =>
    obtain ⟨g, hq, hnext⟩ := hp
    exact ⟨g, hq, fun w' hle r hr => ih r (hnext w' hle r hr)
      fun w'' hle' => hf w'' (le_trans hle hle')⟩

end Program

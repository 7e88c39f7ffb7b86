import OneToThree.Lib.Outline

/-!
# What a request knows

An annotation of the programs of a service (`Lib.Outline`) by what a request knows: facts on the
store and the history, with what the request has learnt so far as parameters, which no step of
another request breaks.

* `Service.Sure` holds of a program that goes on from what is known to the end: each statement
  meets its guarantee, and its answer leads to what is known next.
* `Service.Triple` is what a part of a program leads to, whatever the rest is, with a rule for each
  construct.
* `Service.knowledge` is the induction over the runs: what the guarantees keep holds in every run.
-/

namespace Service

variable {S Q A B H : Type} {R : Q → Type} (svc : Service S Q R A B) (hist : History S Q R A B H)
  (stmt : State S Q R A B × H → ℕ → A → Q → Prop) (I : S → H → Prop) {κ : Type}
  (guarantee : ℕ → A → Q → S → H → Prop) (knows : κ → ℕ → A → S → H → Prop)

/-- From here on the request knows enough: at each statement some `k` is known, which implies the
    guarantee of the statement, and whenever it is served, the request is sure of what is left. -/
def Sure (i : ℕ) (a : A) : Program Q R B → S → H → Prop
  | .done _, _, _ => True
  | .ask q next, s, h => ∃ k, knows k i a s h ∧ (∀ s h, knows k i a s h → guarantee i a q s h) ∧
      ∀ p, stmt p i a q → I p.1.store p.2 → knows k i a p.1.store p.2 →
        Sure i a (next (svc.answer p.1.store q).1) (svc.answer p.1.store q).2
          (hist.serve p.1 i a q (next (svc.answer p.1.store q).1) p.2)

/-- When `k` is known before the part `x` of a request, `fin` is known after it. -/
def Triple {α : Type} (a : A) (k : κ) (x : Program Q R α) (fin : α → κ) : Prop :=
  ∀ (i : ℕ) (f : α → Program Q R B),
    (∀ r s h, knows (fin r) i a s h → Sure svc hist stmt I guarantee knows i a (f r) s h) →
    ∀ s h, knows k i a s h → Sure svc hist stmt I guarantee knows i a (x >>= f) s h

variable {svc hist stmt I guarantee knows} {α β : Type} {a : A} {k k' : κ}

namespace Triple

theorem pure {r : α} {fin : α → κ}
    (h : ∀ i s hi, knows k i a s hi → knows (fin r) i a s hi) :
    Triple svc hist stmt I guarantee knows a k (Pure.pure r) fin :=
  fun i _ hf s hi hk => hf r s hi (h i s hi hk)

/-- The rule of sequence. -/
theorem bind {x : Program Q R α} {y : α → Program Q R β} {mid : α → κ} {fin : β → κ}
    (hx : Triple svc hist stmt I guarantee knows a k x mid)
    (hy : ∀ r, Triple svc hist stmt I guarantee knows a (mid r) (y r) fin) :
    Triple svc hist stmt I guarantee knows a k (x >>= y) fin := by
  intro i f hf s h hk
  rw [Program.bind_assoc]
  exact hx i _ (fun r => hy r i f hf) s h hk

/-- The rule of consequence. -/
theorem imp {x : Program Q R α} {fin fin' : α → κ}
    (hx : Triple svc hist stmt I guarantee knows a k x fin)
    (hk : ∀ i s h, knows k' i a s h → knows k i a s h)
    (hfin : ∀ r i s h, knows (fin r) i a s h → knows (fin' r) i a s h) :
    Triple svc hist stmt I guarantee knows a k' x fin' :=
  fun i f hf s h h' => hx i f (fun r s h hr => hf r s h (hfin r i s h hr)) s h (hk i s h h')

theorem ite {c : Prop} [Decidable c] {x y : Program Q R α} {fin : α → κ}
    (hx : c → Triple svc hist stmt I guarantee knows a k x fin)
    (hy : ¬c → Triple svc hist stmt I guarantee knows a k y fin) :
    Triple svc hist stmt I guarantee knows a k (if c then x else y) fin := by
  split_ifs with hc
  · exact hx hc
  · exact hy hc

/-- A statement: what is known implies its guarantee, and leads to what is known of the answer. -/
theorem request {q : Q} {fin : R q → κ}
    (hguarantee : ∀ i s h, knows k i a s h → guarantee i a q s h)
    (hfin : ∀ p i prog, stmt p i a q → I p.1.store p.2 → knows k i a p.1.store p.2 →
      knows (fin (svc.answer p.1.store q).1) i a (svc.answer p.1.store q).2
        (hist.serve p.1 i a q prog p.2)) :
    Triple svc hist stmt I guarantee knows a k (Program.request q) fin :=
  fun i _ hf _ _ hk => ⟨k, hk, hguarantee i, fun p hstmt hI hk => hf _ _ _ (hfin p i _ hstmt hI hk)⟩

/-- A whole request. -/
theorem sure {x : Program Q R B} {fin : B → κ}
    (hx : Triple svc hist stmt I guarantee knows a k x fin) {i : ℕ} {s : S} {h : H}
    (hk : knows k i a s h) : Sure svc hist stmt I guarantee knows i a x s h := by
  have hsure := hx i Program.done (fun _ _ _ _ => trivial) s h hk
  rwa [show x >>= Program.done = x from Program.bind_pure x] at hsure

end Triple

variable {init : S → Prop} {recv : State S Q R A B × H → A → Prop} [∀ p a, Decidable (recv p a)]
  [∀ p i a q, Decidable (stmt p i a q)]

variable (I guarantee knows) in
/-- What holds in every run: `I`, which the statements with their guarantees keep, as they keep
    what the other requests in flight know. -/
theorem knowledge (hinit : ∀ store, init store → I store hist.start)
    (hreceive : ∀ p a, recv p a → I p.1.store p.2 → I p.1.store (hist.receive p.1 a p.2) ∧
      Sure svc hist stmt I guarantee knows p.1.received a (svc.handle a) p.1.store
        (hist.receive p.1 a p.2))
    (hreceive_stable : ∀ p a, recv p a → I p.1.store p.2 → ∀ k j b, j < p.1.received →
      knows k j b p.1.store p.2 → knows k j b p.1.store (hist.receive p.1 a p.2))
    (hserve : ∀ p i a q prog, stmt p i a q → I p.1.store p.2 → guarantee i a q p.1.store p.2 →
      I (svc.answer p.1.store q).2 (hist.serve p.1 i a q prog p.2))
    (hserve_stable : ∀ p i a q prog, stmt p i a q → I p.1.store p.2 →
      guarantee i a q p.1.store p.2 → ∀ k j b, j ≠ i → p.1.tasks.has j = true →
      knows k j b p.1.store p.2 →
      knows k j b (svc.answer p.1.store q).2 (hist.serve p.1 i a q prog p.2))
    {p : State S Q R A B × H}
    (hp : ((svc.recorded hist init).restrict (Guarded recv stmt)).Reachable p) :
    I p.1.store p.2 := by
  have hasserted : ∀ {i : ℕ} {a : A} {prog : Program Q R B} {s : S} {h : H},
      Sure svc hist stmt I guarantee knows i a prog s h →
      Asserted (fun i a q next s h => Sure svc hist stmt I guarantee knows i a (.ask q next) s h)
        (fun _ _ _ _ _ => True) i a s h prog := by
    intro i a prog s h hprog
    cases prog with
    | done b => trivial
    | ask q next => exact hprog
  refine (Service.outline (P := fun _ _ _ => True) I
    (fun i a q next s h => Sure svc hist stmt I guarantee knows i a (.ask q next) s h)
    (fun _ _ _ _ _ => True) hinit ?_ ?_ ?_ ?_ ?_ hp).holds
  · intro a
    refine Program.along_of_forall (fun q next => ⟨trivial, fun p i r s hanswer hstmt hI hsure => ?_⟩) _
    obtain ⟨rfl, rfl⟩ := Prod.ext_iff.1 hanswer
    obtain ⟨k, hk, -, hnext⟩ := hsure
    exact hasserted (hnext p hstmt hI hk)
  · intro p a hok hout
    obtain ⟨hI, hsure⟩ := hreceive p a hok hout.holds
    exact ⟨hI, hasserted hsure⟩
  · rintro p a hok hout j b q next hj ⟨k, hk, hrest⟩
    exact ⟨k, hreceive_stable p a hok hout.holds k j b hj hk, hrest⟩
  · intro p i a q next hok hout hi _
    obtain ⟨k, hk, hguarantee, -⟩ := hout.asserted i a q next hi
    exact hserve p i a q _ hok hout.holds (hguarantee _ _ hk)
  · intro p i a q next hok hout hi j b q' next' hji hj
    obtain ⟨k, hk, hguarantee, -⟩ := hout.asserted i a q next hi
    obtain ⟨k', hk', hrest⟩ := hout.asserted j b q' next' hj
    exact ⟨k', hserve_stable p i a q _ hok hout.holds (hguarantee _ _ hk) k' j b hji
      (InsMap.has_iff.2 ⟨_, hj⟩) hk', hrest⟩

end Service

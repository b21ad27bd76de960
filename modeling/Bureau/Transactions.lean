import Mathlib

/-!
Transactions over a state. A transaction either commits a new state or fails, and a
failed one leaves the state as it was. Invariants of single steps carry over to whole
runs.
-/

namespace Transactions

variable {ε σ α β ι : Type}

/-- Raise `e` unless the condition holds. -/
def require (c : Bool) (e : ε) : Except ε Unit :=
  if c then .ok () else .error e

@[simp] theorem require_eq_ok {c : Bool} {e : ε} {u : Unit} :
    require c e = .ok u ↔ c = true := by
  cases c <;> simp [require]

/-- The value of an optional lookup, or `e`. -/
def orRaise (x : Option α) (e : ε) : Except ε α :=
  match x with
  | some a => .ok a
  | none => .error e

@[simp] theorem orRaise_eq_ok {x : Option α} {e : ε} {a : α} : orRaise x e = .ok a ↔ x = some a := by
  cases x <;> simp [orRaise]

theorem bind_eq_ok {x : Except ε α} {f : α → Except ε β} {b : β} :
    (x >>= f) = .ok b ↔ ∃ a, x = .ok a ∧ f a = .ok b := by
  cases x with
  | error e => simp [bind,Except.bind]
  | ok a => simp [bind,Except.bind]

theorem pure_eq_ok {a b : α} : (pure a : Except ε α) = .ok b ↔ a = b := by
  simp [pure,Except.pure]

theorem steps_ok : (∀ {α β : Type} {x : Except ε α} {f : α → Except ε β} {b : β},
      (x >>= f) = .ok b ↔ ∃ a, x = .ok a ∧ f a = .ok b) ∧
    (∀ {c : Bool} {e : ε} {u : Unit}, require c e = .ok u ↔ c = true) ∧
    (∀ {α : Type} {x : Option α} {e : ε} {a : α}, orRaise x e = .ok a ↔ x = some a) ∧
    ∀ {α : Type} {a b : α}, (pure a : Except ε α) = .ok b ↔ a = b :=
  ⟨bind_eq_ok,require_eq_ok,orRaise_eq_ok,pure_eq_ok⟩

theorem map_eq_ok {x : Except ε α} {f : α → β} {b : β} : x.map f = .ok b ↔ ∃ a, x = .ok a ∧ f a = b := by
  cases x <;> simp [Except.map]

theorem toOption_eq_some {x : Except ε α} {a : α} : x.toOption = some a ↔ x = .ok a := by
  cases x <;> simp [Except.toOption]

theorem ite_eq_ok {c : Prop} [Decidable c] {x y : Except ε α} {a : α} :
    (if c then x else y) = .ok a ↔ (c ∧ x = .ok a) ∨ (¬ c ∧ y = .ok a) := by
  by_cases h : c <;> simp [h]

def Avoids (bad : ε → Prop) (x : Except ε α) : Prop :=
  ∀ e, x = .error e → ¬ bad e

section Avoids

variable {bad : ε → Prop}

@[simp] theorem avoids_ok (a : α) : Avoids bad (.ok a) := by
  simp [Avoids]

@[simp] theorem avoids_pure (a : α) : Avoids bad (pure a) :=
  avoids_ok a

@[simp] theorem avoids_error {e : ε} : Avoids bad (.error e : Except ε α) ↔ ¬ bad e := by
  simp [Avoids]

theorem avoids_require {e : ε} (c : Bool) (h : ¬ bad e) : Avoids bad (require c e) := by
  cases c <;> simp [require,h]

theorem avoids_orRaise {e : ε} (x : Option α) (h : ¬ bad e) : Avoids bad (orRaise x e) := by
  cases x <;> simp [orRaise,h]

theorem avoids_bind {x : Except ε α} {f : α → Except ε β} (hx : Avoids bad x) (hf : ∀ a, Avoids bad (f a)) :
    Avoids bad (x >>= f) := by
  cases x with
  | error e =>
    rintro _ ⟨⟩
    exact hx e rfl
  | ok a => exact hf a

end Avoids

def collect (f : α → Except ε β) : List α → Except ε (List β)
  | [] => .ok []
  | a :: rest => do
    let b ← f a
    let bs ← collect f rest
    return b :: bs

theorem collect_eq_ok {f : α → Except ε β} {as : List α} {bs : List β} :
    collect f as = .ok bs ↔ List.Forall₂ (fun a b => f a = .ok b) as bs := by
  induction as generalizing bs with
  | nil => simp only [collect,Except.ok.injEq,List.forall₂_nil_left_iff,eq_comm]
  | cons a as ih =>
    simp only [collect,bind_eq_ok,pure_eq_ok,ih,List.forall₂_cons_left_iff]
    constructor
    · rintro ⟨b,hb,rest,hrest,rfl⟩
      exact ⟨b,rest,hb,hrest,rfl⟩
    · rintro ⟨b,rest,hb,hrest,rfl⟩
      exact ⟨b,hb,rest,hrest,rfl⟩

theorem exists_of_mem_collect {f : α → Except ε β} {as : List α} {bs : List β}
    (h : collect f as = .ok bs) {b : β} (hb : b ∈ bs) : ∃ a ∈ as, f a = .ok b := by
  rw [collect_eq_ok] at h
  induction h with
  | nil => simp at hb
  | cons hab _ ih =>
    rcases List.mem_cons.mp hb with rfl | hb
    · exact ⟨_,List.mem_cons_self,hab⟩
    · obtain ⟨a,ha,hf⟩ := ih hb
      exact ⟨a,List.mem_cons_of_mem _ ha,hf⟩

theorem exists_of_collect {f : α → Except ε β} {as : List α} {bs : List β}
    (h : collect f as = .ok bs) {a : α} (ha : a ∈ as) : ∃ b ∈ bs, f a = .ok b := by
  rw [collect_eq_ok] at h
  induction h with
  | nil => simp at ha
  | cons hab _ ih =>
    rcases List.mem_cons.mp ha with rfl | ha
    · exact ⟨_,List.mem_cons_self,hab⟩
    · obtain ⟨b,hb,hf⟩ := ih ha
      exact ⟨b,List.mem_cons_of_mem _ hb,hf⟩

theorem collect_total {f : α → Except ε β} {as : List α} (h : ∀ a ∈ as, ∃ b, f a = .ok b) :
    ∃ bs, collect f as = .ok bs := by
  induction as with
  | nil => exact ⟨[],rfl⟩
  | cons a rest ih =>
    obtain ⟨b,hb⟩ := h a List.mem_cons_self
    obtain ⟨bs,hbs⟩ := ih fun c hc => h c (List.mem_cons_of_mem _ hc)
    exact ⟨b :: bs,by simp only [collect,bind_eq_ok,pure_eq_ok]; exact ⟨b,hb,bs,hbs,rfl⟩⟩

theorem map_eq_of_collect {γ : Type} {f : α → Except ε β} {p : α → γ} {q : β → γ} {as : List α} {bs : List β}
    (hf : ∀ a b, f a = .ok b → q b = p a) (h : collect f as = .ok bs) : bs.map q = as.map p := by
  rw [collect_eq_ok] at h
  induction h with
  | nil => rfl
  | cons hab _ ih => rw [List.map_cons,List.map_cons,ih,hf _ _ hab]

theorem reflTransGen_of_foldlM {τ : Type} {R : τ → τ → Prop} {f : σ → α → Except ε σ} (p : σ → τ)
    (hf : ∀ s a s', f s a = .ok s' → Relation.ReflTransGen R (p s) (p s')) {items : List α} {s s' : σ}
    (h : items.foldlM f s = .ok s') : Relation.ReflTransGen R (p s) (p s') := by
  induction items generalizing s with
  | nil => exact Except.ok.inj h ▸ .refl
  | cons a rest ih =>
    rw [List.foldlM_cons,bind_eq_ok] at h
    obtain ⟨mid,hfirst,hrest⟩ := h
    exact (hf s a mid hfirst).trans (ih hrest)

def commit (s : σ) : Except ε σ → σ
  | .ok s' => s'
  | .error _ => s

@[simp] theorem commit_error (s : σ) (e : ε) : commit s (.error e) = s := rfl

@[simp] theorem commit_ok (s s' : σ) : commit s (.ok s' : Except ε σ) = s' := rfl

/-- A property of the state that survives a committed transaction survives the transaction. -/
theorem commit_preserves {P : σ → Prop} {s : σ} {r : Except ε σ} (hs : P s)
    (hok : ∀ s', r = .ok s' → P s') : P (commit s r) := by
  cases r with
  | error e => exact hs
  | ok s' => exact hok s' rfl

/-- The states reached from `init` by steps whose inputs are admissible where they are taken. -/
inductive Reach (step : σ → ι → σ) (admissible : σ → ι → Prop) (init : σ) : σ → Prop
  | init : Reach step admissible init init
  | step {s : σ} {i : ι} : Reach step admissible init s → admissible s i →
      Reach step admissible init (step s i)

theorem Reach.invariant {step : σ → ι → σ} {admissible : σ → ι → Prop} {init s : σ} {P : σ → Prop}
    (hinit : P init) (hstep : ∀ s i, P s → admissible s i → P (step s i))
    (h : Reach step admissible init s) : P s := by
  induction h with
  | init => exact hinit
  | step _ hadm ih => exact hstep _ _ ih hadm

theorem Reach.stable {step : σ → ι → σ} {admissible : σ → ι → Prop} {init s : σ} {R : σ → σ → Prop}
    (hrefl : ∀ s, R s s) (htrans : ∀ a b c, R a b → R b c → R a c)
    (hstep : ∀ s i, admissible s i → R s (step s i))
    (h : Reach step admissible init s) : R init s := by
  induction h with
  | init => exact hrefl _
  | step _ hadm ih => exact htrans _ _ _ ih (hstep _ _ hadm)

def run (step : σ → ι → σ) (s : σ) (inputs : List ι) : σ :=
  inputs.foldl step s

@[simp] theorem run_cons (step : σ → ι → σ) (s : σ) (i : ι) (rest : List ι) :
    run step s (i :: rest) = run step (step s i) rest := rfl

theorem run_append (step : σ → ι → σ) (s : σ) (first second : List ι) :
    run step s (first ++ second) = run step (run step s first) second := by
  simp [run]

theorem Reach.run {step : σ → ι → σ} {admissible : σ → ι → Prop} {s : σ} {inputs : List ι}
    (h : ∀ i ∈ inputs, ∀ s, admissible s i) :
    Reach step admissible s (Transactions.run step s inputs) := by
  induction inputs using List.reverseRecOn with
  | nil => exact .init
  | append_singleton rest i ih =>
    rw [run_append]
    exact .step (ih fun j hj => h j (List.mem_append_left _ hj)) (h i (by simp) _)

end Transactions

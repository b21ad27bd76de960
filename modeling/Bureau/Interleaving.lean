import Bureau.Transactions

/-!
Calls that run side by side on one shared state. A call is a local state that advances by atomic
steps, each of which may read and write the shared state once; it may also stop at any point, as a
process that crashes or raises does. A proof outline attaches an assertion to every local state: the
steps of a call establish its next assertion and do not interfere with the assertions of the others.
-/

namespace Interleaving

open Transactions

structure World (σ l : Type) where
  shared : σ
  calls : ℕ → Option l

inductive Event (l ι : Type) where
  | begin (id : ℕ) (call : l)
  | advance (id : ℕ) (input : ι)
  | stop (id : ℕ)

variable {σ l ι : Type}

def World.step (advance : ℕ → σ → l → ι → σ × Option l) (w : World σ l) : Event l ι → World σ l
  | .begin id call =>
    if (w.calls id).isNone then { w with calls := Function.update w.calls id (some call) } else w
  | .advance id input =>
    match w.calls id with
    | none => w
    | some call =>
      let next := advance id w.shared call input
      ⟨next.1,Function.update w.calls id next.2⟩
  | .stop id => { w with calls := Function.update w.calls id none }

/-- The events of a run whose calls begin in the given local states. -/
def admits (begins : l → Prop) (_ : World σ l) : Event l ι → Prop
  | .begin _ call => begins call
  | _ => True

def World.idle (s : σ) : World σ l := ⟨s,fun _ => none⟩

/-- Assertions for the calls that hold along every interleaving. -/
structure Outline (advance : ℕ → σ → l → ι → σ × Option l) (begins : l → Prop) (Inv : σ → Prop)
    (Holds : ℕ → σ → l → Prop) : Prop where
  begun : ∀ id s call, Inv s → begins call → Holds id s call
  kept : ∀ id s call input, Inv s → Holds id s call → Inv (advance id s call input).1
  next : ∀ id s call input call', Inv s → Holds id s call → (advance id s call input).2 = some call' →
    Holds id (advance id s call input).1 call'
  others : ∀ id s call input other m, Inv s → Holds id s call → other ≠ id → Holds other s m →
    Holds other (advance id s call input).1 m

/-- The invariant of the shared state and the assertions of all calls under way. -/
def World.Sound (Inv : σ → Prop) (Holds : ℕ → σ → l → Prop) (w : World σ l) : Prop :=
  Inv w.shared ∧ ∀ id call, w.calls id = some call → Holds id w.shared call

theorem World.sound_idle {Inv : σ → Prop} {Holds : ℕ → σ → l → Prop} {s : σ} (h : Inv s) :
    (World.idle s).Sound Inv Holds :=
  ⟨h,fun _ _ hcall => by simp [World.idle] at hcall⟩

theorem World.sound_update {Inv : σ → Prop} {Holds : ℕ → σ → l → Prop} {s : σ} {calls : ℕ → Option l} {id : ℕ}
    {next : Option l} (hinv : Inv s) (hnext : ∀ call, next = some call → Holds id s call)
    (hothers : ∀ other m, other ≠ id → calls other = some m → Holds other s m) :
    World.Sound Inv Holds ⟨s,Function.update calls id next⟩ := by
  refine ⟨hinv,fun other m hm => ?_⟩
  change Function.update calls id next other = some m at hm
  by_cases hid : other = id
  · subst hid
    rw [Function.update_self] at hm
    exact hnext m hm
  · rw [Function.update_of_ne hid] at hm
    exact hothers other m hid hm

section Outline

variable {advance : ℕ → σ → l → ι → σ × Option l} {begins : l → Prop} {Inv : σ → Prop}
  {Holds : ℕ → σ → l → Prop} {start w : World σ l}

theorem Outline.step (h : Outline advance begins Inv Holds) (hw : w.Sound Inv Holds) (event : Event l ι)
    (hevent : admits begins w event) : (w.step advance event).Sound Inv Holds := by
  obtain ⟨hinv,hcalls⟩ := hw
  cases event with
  | begin id call =>
    by_cases hfree : (w.calls id).isNone
    · rw [World.step,if_pos hfree]
      refine World.sound_update hinv (fun started hstarted => ?_) fun other m _ hm => hcalls other m hm
      exact Option.some.inj hstarted ▸ h.begun id _ call hinv hevent
    · rw [World.step,if_neg hfree]
      exact ⟨hinv,hcalls⟩
  | advance id input =>
    cases hcall : w.calls id with
    | none =>
      simp only [World.step,hcall]
      exact ⟨hinv,hcalls⟩
    | some call =>
      simp only [World.step,hcall]
      have hholds := hcalls id call hcall
      refine World.sound_update (h.kept id _ call input hinv hholds) (fun call' hnext => ?_) fun other m hid hm => ?_
      · exact h.next id _ call input call' hinv hholds hnext
      · exact h.others id _ call input other m hinv hholds hid (hcalls other m hm)
  | stop id => exact World.sound_update hinv (fun _ hnone => by cases hnone) fun other m _ hm => hcalls other m hm

theorem Outline.reach (h : Outline advance begins Inv Holds) (hstart : start.Sound Inv Holds)
    (hreach : Reach (World.step advance) (admits begins) start w) : w.Sound Inv Holds :=
  Reach.invariant (P := fun w => w.Sound Inv Holds) hstart (fun _ event hw hevent => h.step hw event hevent) hreach

/-- What every step of a call under way leaves related stays related along every interleaving. -/
theorem Outline.related (h : Outline advance begins Inv Holds) {R : σ → σ → Prop} (hrefl : ∀ s, R s s)
    (htrans : ∀ a b c, R a b → R b c → R a c)
    (hstep : ∀ id s call input, Inv s → Holds id s call → R s (advance id s call input).1)
    (hstart : start.Sound Inv Holds) (hreach : Reach (World.step advance) (admits begins) start w) :
    R start.shared w.shared := by
  induction hreach with
  | init => exact hrefl _
  | @step before event hbefore _ ih =>
    refine htrans _ _ _ ih ?_
    obtain ⟨hinv,hcalls⟩ := h.reach hstart hbefore
    cases event with
    | begin id call =>
      by_cases hfree : (before.calls id).isNone <;> simpa [World.step,hfree] using hrefl before.shared
    | advance id input =>
      cases hcall : before.calls id with
      | none => simpa [World.step,hcall] using hrefl before.shared
      | some call => simpa [World.step,hcall] using hstep id _ call input hinv (hcalls id call hcall)
    | stop id => exact hrefl _

end Outline

end Interleaving

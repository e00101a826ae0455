import Mathlib.Data.List.Sort

/-!
# Computations that keep their state when they refuse

Code that changes a structure in place and returns an error code leaves behind
whatever it had changed before the error. `ExceptT` over `StateM` is that
reading: a refusal still has a final state. `Returns` is the judgment that a
computation succeeded, with its value and its final state, and these are the
rules that take a successful computation apart. `Succeeds` and `Refuses` say
which of the two ends a computation comes to, and `RefusesUnchanged` that a
refusal, if there is one, comes before the first change.
-/

namespace ScratchBird.Lib

variable {σ ε α β : Type} {x : Except ε α} {d : ε} {t : σ}

def Returns (m : ExceptT ε (StateM σ) α) (s : σ) (a : α) (s' : σ) : Prop :=
  m.run.run s = (.ok a, s')

variable {s s' : σ} {a : α} {b : β} {m : ExceptT ε (StateM σ) α} {f : α → ExceptT ε (StateM σ) β}

theorem returns_pure {x : α} :
    Returns (pure x : ExceptT ε (StateM σ) α) s a s' ↔ x = a ∧ s = s' := by
  constructor
  · intro h
    exact ⟨Except.ok.inj (Prod.ext_iff.mp h).1, (Prod.ext_iff.mp h).2⟩
  · rintro ⟨rfl, rfl⟩
    rfl

theorem run_bind : (m >>= f).run.run s =
      match m.run.run s with
      | (.ok a, t) => (f a).run.run t
      | (.error d, t) => (.error d, t) := by
  rw [ExceptT.run_bind, StateT.run_bind]
  rcases m.run.run s with ⟨x | x, t⟩ <;> rfl

theorem returns_bind :
    Returns (m >>= f) s b s' ↔ ∃ a t, Returns m s a t ∧ Returns (f a) t b s' := by
  rw [Returns, run_bind]
  constructor
  · intro h
    rcases hm : m.run.run s with ⟨d | a, t⟩
    · rw [hm] at h
      exact absurd (Prod.ext_iff.mp h).1 (by simp)
    · rw [hm] at h
      exact ⟨a, t, hm, h⟩
  · rintro ⟨a, t, hm, hf⟩
    rw [hm]
    exact hf

/-- A first part that is known to return what it returns. -/
theorem Returns.bind_iff (h : Returns m s a t) :
    Returns (m >>= f) s b s' ↔ Returns (f a) t b s' := by
  rw [Returns, run_bind, h, Returns]

theorem returns_throw : Returns (throw d : ExceptT ε (StateM σ) α) s a s' ↔ False := by
  constructor
  · intro h
    exact absurd (Prod.ext_iff.mp h).1 (by simp)
  · exact False.elim

theorem returns_get : Returns (get : ExceptT ε (StateM σ) σ) s t s' ↔ s = t ∧ s = s' := by
  constructor
  · intro h
    exact ⟨Except.ok.inj (Prod.ext_iff.mp h).1, (Prod.ext_iff.mp h).2⟩
  · rintro ⟨rfl, rfl⟩
    rfl

theorem returns_get_bind {f : σ → ExceptT ε (StateM σ) β} :
    Returns (get >>= f) s b s' ↔ Returns (f s) s b s' := Iff.rfl

theorem returns_set {u : PUnit} : Returns (set t : ExceptT ε (StateM σ) PUnit) s u s' ↔ t = s' := by
  constructor
  · intro h
    exact (Prod.ext_iff.mp h).2
  · rintro rfl
    rfl

/-- A computation that neither reads nor writes the state. -/
def ofOutcome (x : Except ε α) : ExceptT ε (StateM σ) α := ExceptT.mk (pure x)

theorem returns_ofOutcome :
    Returns (ofOutcome x : ExceptT ε (StateM σ) α) s a s' ↔ x = .ok a ∧ s = s' := by
  constructor
  · intro h
    exact ⟨(Prod.ext_iff.mp h).1, (Prod.ext_iff.mp h).2⟩
  · rintro ⟨rfl, rfl⟩
    rfl

theorem returns_ofOutcome_bind :
    Returns (ofOutcome x >>= f) s b s' ↔ ∃ a, x = .ok a ∧ Returns (f a) s b s' := by
  rw [returns_bind]
  constructor
  · rintro ⟨a, t, hx, h⟩
    obtain ⟨ha, rfl⟩ := returns_ofOutcome.mp hx
    exact ⟨a, ha, h⟩
  · rintro ⟨a, ha, h⟩
    exact ⟨a, s, returns_ofOutcome.mpr ⟨ha, rfl⟩, h⟩

theorem returns_guard {p : Prop} [Decidable p] :
    Returns (if p then throw d else m) s a s' ↔ ¬p ∧ Returns m s a s' := by
  by_cases hp : p <;> simp [hp, returns_throw]

/-! ## The two ends of a computation -/

def Succeeds (m : ExceptT ε (StateM σ) α) (s : σ) : Prop := ∃ a s', Returns m s a s'

/-- The computation ends with an error and leaves `s'` behind. -/
def Refuses (m : ExceptT ε (StateM σ) α) (s s' : σ) : Prop := ∃ d, m.run.run s = (.error d, s')

theorem Succeeds.not_refuses (h : Succeeds m s) : ¬Refuses m s s' := by
  rintro ⟨d, hd⟩
  obtain ⟨a, t, ha⟩ := h
  rw [Returns, hd] at ha
  exact absurd (Prod.ext_iff.mp ha).1 (by simp)

theorem refuses_of_isOk (h : (m.run.run s).1.isOk = false) : Refuses m s (m.run.run s).2 := by
  rcases hm : m.run.run s with ⟨d | a, t⟩
  · exact ⟨d, hm⟩
  · rw [hm] at h
    exact Bool.noConfusion h

theorem returns_of_isOk (h : (m.run.run s).1.isOk = true) : ∃ a, Returns m s a (m.run.run s).2 := by
  rcases hm : m.run.run s with ⟨d | a, t⟩
  · rw [hm] at h
    exact Bool.noConfusion h
  · exact ⟨a, hm⟩

theorem Returns.bind (h : Returns m s a t) (hf : Succeeds (f a) t) : Succeeds (m >>= f) s := by
  obtain ⟨b, s', hb⟩ := hf
  exact ⟨b, s', returns_bind.mpr ⟨a, t, h, hb⟩⟩

theorem succeeds_pure {x : α} :
    Succeeds (pure x : ExceptT ε (StateM σ) α) s := ⟨x, s, returns_pure.mpr ⟨rfl, rfl⟩⟩

/-- A call whose answer is dropped. -/
theorem returns_discard {u : Unit} :
    Returns (do let _ ← m; pure ()) s u s' ↔ ∃ a, Returns m s a s' := by
  rw [returns_bind]
  constructor
  · rintro ⟨a, t, ha, h⟩
    obtain ⟨-, rfl⟩ := returns_pure.mp h
    exact ⟨a, ha⟩
  · rintro ⟨a, ha⟩
    exact ⟨a, s', ha, returns_pure.mpr ⟨rfl, rfl⟩⟩

theorem refuses_bind :
    Refuses (m >>= f) s s' ↔ Refuses m s s' ∨ ∃ a t, Returns m s a t ∧ Refuses (f a) t s' := by
  rw [Refuses, run_bind]
  constructor
  · rintro ⟨d, h⟩
    rcases hm : m.run.run s with ⟨e | a, t⟩
    · rw [hm] at h
      obtain ⟨-, rfl⟩ := Prod.mk.inj h
      exact .inl ⟨e, hm⟩
    · rw [hm] at h
      exact .inr ⟨a, t, hm, d, h⟩
  · rintro (⟨d, hm⟩ | ⟨a, t, hm, d, hf⟩)
    · rw [hm]
      exact ⟨d, rfl⟩
    · rw [Returns] at hm
      rw [hm]
      exact ⟨d, hf⟩

/-- A sequence ended in its first part or went through it. -/
theorem bind_cases {o : Except ε β} (h : (m >>= f).run.run s = (o, s')) :
    Refuses m s s' ∨ ∃ a t, Returns m s a t ∧ (f a).run.run t = (o, s') := by
  rw [run_bind] at h
  rcases hm : m.run.run s with ⟨d | a, t⟩
  · rw [hm] at h
    obtain ⟨-, rfl⟩ := Prod.mk.inj h
    exact .inl ⟨d, hm⟩
  · rw [hm] at h
    exact .inr ⟨a, t, hm, h⟩

theorem refuses_get : ¬Refuses (get : ExceptT ε (StateM σ) σ) s s' :=
  Succeeds.not_refuses ⟨s, s, returns_get.mpr ⟨rfl, rfl⟩⟩

theorem refuses_get_bind {f : σ → ExceptT ε (StateM σ) β} :
    Refuses (get >>= f) s s' ↔ Refuses (f s) s s' := Iff.rfl

theorem refuses_throw : Refuses (throw d : ExceptT ε (StateM σ) α) s s' ↔ s = s' := by
  constructor
  · rintro ⟨e, h⟩
    exact (Prod.mk.inj h).2
  · rintro rfl
    exact ⟨d, rfl⟩

theorem Refuses.of_ofOutcome (h : Refuses (ofOutcome x : ExceptT ε (StateM σ) α) s s') :
    s = s' := by
  obtain ⟨d, h⟩ := h
  exact (Prod.mk.inj h).2

/-! ## What a computation may do to the state -/

/-- Whichever way the computation ends, the state it leaves is related to the
one it started from. -/
def Moves (R : σ → σ → Prop) (m : ExceptT ε (StateM σ) α) : Prop := ∀ s, R s (m.run.run s).2

variable {R : σ → σ → Prop}

theorem moves_throw [Std.Refl R] :
    Moves R (throw d : ExceptT ε (StateM σ) α) := fun s => refl_of R s

theorem Moves.bind [IsTrans σ R] (hm : Moves R m) (hf : ∀ a, Moves R (f a)) :
    Moves R (m >>= f) := by
  intro s
  have hs := hm s
  rw [run_bind]
  rcases hrun : m.run.run s with ⟨d | a, t⟩
  · rw [hrun] at hs
    exact hs
  · rw [hrun] at hs
    exact trans_of R hs (hf a t)

theorem Moves.ends {o : Except ε α} (hm : Moves R m) (h : m.run.run s = (o, s')) : R s s' := by
  have hs := hm s
  rw [h] at hs
  exact hs

theorem Moves.returns (hm : Moves R m) (h : Returns m s a s') : R s s' := hm.ends h

theorem Moves.refuses (hm : Moves R m) (h : Refuses m s s') : R s s' :=
  h.elim fun _ hrun => hm.ends hrun

/-! ## Refusals that leave nothing behind -/

/-- The computation does not change the state, whichever way it ends. -/
def Reads (m : ExceptT ε (StateM σ) α) : Prop := ∀ s, (m.run.run s).2 = s

/-- A refusal leaves the state as it was. -/
def RefusesUnchanged (m : ExceptT ε (StateM σ) α) (s : σ) : Prop := ∀ s', Refuses m s s' → s = s'

theorem Reads.moves [Std.Refl R] (h : Reads m) : Moves R m := by
  intro s
  rw [h s]
  exact refl_of R s

theorem reads_ofOutcome : Reads (ofOutcome x : ExceptT ε (StateM σ) α) := fun _ => rfl

theorem reads_pure {x : α} : Reads (pure x : ExceptT ε (StateM σ) α) := fun _ => rfl

theorem reads_get : Reads (get : ExceptT ε (StateM σ) σ) := fun _ => rfl

theorem Reads.bind (hm : Reads m) (hf : ∀ a, Reads (f a)) : Reads (m >>= f) := by
  intro s
  have hmoves : Moves Eq (m >>= f) := hm.moves.bind fun a => (hf a).moves
  exact (hmoves s).symm

theorem Reads.returns (hm : Reads m) (h : Returns m s a s') : s = s' := hm.moves.returns h

theorem Reads.unchanged (hm : Reads m) : RefusesUnchanged m s := fun _ h => hm.moves.refuses h

theorem Succeeds.unchanged (h : Succeeds m s) :
    RefusesUnchanged m s := fun _ hrefused => absurd hrefused h.not_refuses

theorem refusesUnchanged_throw :
    RefusesUnchanged (throw d : ExceptT ε (StateM σ) α) s := fun _ h => refuses_throw.mp h

theorem Reads.bind_unchanged (hm : Reads m) (hf : ∀ a, Returns m s a s → RefusesUnchanged (f a) s) :
    RefusesUnchanged (m >>= f) s := by
  intro s' hrefused
  rcases refuses_bind.mp hrefused with h | ⟨a, t, hreturns, h⟩
  · exact hm.unchanged s' h
  · obtain rfl := hm.returns hreturns
    exact hf a hreturns s' h

/-- After the first change nothing may refuse. -/
theorem RefusesUnchanged.bind (hm : RefusesUnchanged m s)
    (hf : ∀ a t, Returns m s a t → Succeeds (f a) t) : RefusesUnchanged (m >>= f) s := by
  intro s' hrefused
  rcases refuses_bind.mp hrefused with h | ⟨a, t, hreturns, h⟩
  · exact hm s' h
  · exact absurd h (hf a t hreturns).not_refuses

/-- The computation refuses before it changes anything, for the reason `E`, or it
runs as one of the computations `P` describes. -/
def RunsAs (E : Prop) (P : ExceptT ε (StateM σ) α → Prop) (m : ExceptT ε (StateM σ) α) (s : σ) :
    Prop :=
  E ∧ Refuses m s s ∨ ∃ m', P m' ∧ m.run.run s = m'.run.run s

section RunsAs

variable {E E' : Prop} {P : ExceptT ε (StateM σ) α → Prop} {Q : ExceptT ε (StateM σ) β → Prop}

theorem RunsAs.of (h : P m) : RunsAs E P m s := .inr ⟨m, h, rfl⟩

theorem RunsAs.imp {P' : ExceptT ε (StateM σ) α → Prop} (h : RunsAs E P m s) (hE : E → E')
    (hP : ∀ m', P m' → P' m') : RunsAs E' P' m s :=
  Or.imp (.imp_left hE) (fun ⟨m', hm', hrun⟩ => ⟨m', hP m' hm', hrun⟩) h

theorem runsAs_throw (h : E) : RunsAs E P (throw d) s := .inl ⟨h, refuses_throw.mpr rfl⟩

theorem Reads.bind_runsAs (hm : Reads m) (hE : Refuses m s s → E)
    (hf : ∀ a, Returns m s a s → RunsAs E Q (f a) s) : RunsAs E Q (m >>= f) s := by
  have hs := hm s
  rw [RunsAs, Refuses, run_bind]
  rcases hrun : m.run.run s with ⟨d | a, t⟩
  · rw [hrun] at hs
    obtain rfl : t = s := hs
    exact .inl ⟨hE ⟨d, hrun⟩, d, rfl⟩
  · rw [hrun] at hs
    obtain rfl : t = s := hs
    exact hf a hrun

theorem Returns.bind_runsAs (h : Returns m s a s) (hf : RunsAs E Q (f a) s) :
    RunsAs E Q (m >>= f) s := by
  rw [RunsAs, Refuses, run_bind, h]
  exact hf

theorem RunsAs.returns (h : RunsAs E P m s) (hr : Returns m s a s') :
    ∃ m', P m' ∧ Returns m' s a s' := by
  rcases h with ⟨-, h⟩ | ⟨m', hP, hrun⟩
  · exact absurd h (Succeeds.not_refuses ⟨a, s', hr⟩)
  · exact ⟨m', hP, hrun.symm.trans hr⟩

theorem RunsAs.succeeds (h : RunsAs E P m s) (hE : ¬E) (hP : ∀ m', P m' → Succeeds m' s) :
    Succeeds m s := by
  rcases h with ⟨he, -⟩ | ⟨m', hm', hrun⟩
  · exact absurd he hE
  · obtain ⟨a, t, hr⟩ := hP m' hm'
    exact ⟨a, t, hrun.trans hr⟩

theorem RunsAs.unchanged (h : RunsAs E P m s)
    (hP : ∀ m', P m' → RefusesUnchanged m' s) : RefusesUnchanged m s := by
  rintro s' ⟨d, hd⟩
  rcases h with ⟨-, e, he⟩ | ⟨m', hm', hrun⟩
  · rw [hd] at he
    exact (Prod.mk.inj he).2.symm
  · exact hP m' hm' s' ⟨d, hrun.symm.trans hd⟩

end RunsAs

/-! ## Steps that are let happen -/

section Admitted

variable {κ : Type} {admits : σ → κ → Prop} {after : κ → σ → σ} {steps : List κ}

/-- The steps of a list, one after the other, each from a state that admits it. -/
def Admitted (admits : σ → κ → Prop) (after : κ → σ → σ) : List κ → σ → Prop
  | [], _ => True
  | step :: steps, s => admits s step ∧ Admitted admits after steps (after step s)

/-- What holds of every step can be asked for as well. -/
theorem Admitted.and {also : σ → κ → Prop} (h : Admitted admits after steps s)
    (hall : ∀ step ∈ steps, ∀ s, also s step) :
    Admitted (fun s step => admits s step ∧ also s step) after steps s := by
  induction steps generalizing s with
  | nil => trivial
  | cons step steps ih =>
    obtain ⟨hstep, hsteps⟩ := List.forall_mem_cons.mp hall
    exact ⟨⟨h.1, hstep s⟩, ih h.2 hsteps⟩

theorem admitted_of_forall (h : ∀ s step, admits s step) : Admitted admits after steps s := by
  induction steps generalizing s with
  | nil => trivial
  | cons step steps ih => exact ⟨h s step, ih⟩

instance decidableAdmitted [∀ s step, Decidable (admits s step)] :
    ∀ steps s, Decidable (Admitted admits after steps s)
  | [], _ => isTrue trivial
  | step :: steps, s =>
    have := decidableAdmitted steps (after step s)
    inferInstanceAs (Decidable (_ ∧ _))

end Admitted

end ScratchBird.Lib

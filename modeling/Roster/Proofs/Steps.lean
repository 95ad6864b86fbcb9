import Mathlib.Data.List.Perm.Basic

/-!
# Steps that may fail

Steps that succeed one after the other succeed each for itself.  Over a list, steps that never fail
come to the plain function on the list.
-/

namespace Roster
namespace Steps

variable {ε α β : Type}

theorem bind_eq_ok {x : Except ε α} {f : α → Except ε β} {b : β} :
    (x >>= f) = .ok b ↔ ∃ a, x = .ok a ∧ f a = .ok b := by
  cases x with
  | error fault => simp [bind, Except.bind]
  | ok a => simp [bind, Except.bind]

theorem bind_eq_error {x : Except ε α} {f : α → Except ε β} {fault : ε} :
    (x >>= f) = .error fault ↔ x = .error fault ∨ ∃ a, x = .ok a ∧ f a = .error fault := by
  cases x with
  | error other => simp [bind, Except.bind]
  | ok a => simp [bind, Except.bind]

theorem ite_bind_eq_ok {c : Prop} [Decidable c] {x y : Except ε α} {f : α → Except ε β} {b : β} :
    (if c then x >>= f else y >>= f) = .ok b ↔ ∃ a, (if c then x else y) = .ok a ∧ f a = .ok b := by
  by_cases hc : c
  · simp only [if_pos hc, bind_eq_ok]
  · simp only [if_neg hc, bind_eq_ok]

theorem mapError_eq_ok {ε' : Type} {x : Except ε α} {f : ε → ε'} {a : α} :
    x.mapError f = .ok a ↔ x = .ok a := by
  cases x with
  | error fault => simp [Except.mapError]
  | ok a => simp [Except.mapError]

theorem mapError_eq_error {ε' : Type} {x : Except ε α} {f : ε → ε'} {fault : ε'} :
    x.mapError f = .error fault ↔ ∃ cause, x = .error cause ∧ f cause = fault := by
  cases x with
  | error cause => simp [Except.mapError]
  | ok a => simp [Except.mapError]

theorem map_eq_ok {x : Except ε α} {f : α → β} {b : β} :
    x.map f = .ok b ↔ ∃ a, x = .ok a ∧ f a = b := by
  cases x with
  | error fault => simp [Except.map]
  | ok a => simp [Except.map]

theorem map_eq_error {x : Except ε α} {f : α → β} {fault : ε} :
    x.map f = .error fault ↔ x = .error fault := by
  cases x with
  | error other => simp [Except.map]
  | ok a => simp [Except.map]

/-- Two runs that agree on a part of what is at hand agree on a part of what comes next, if the next
steps see to it. -/
theorem map_bind_congr {α' β' γ δ : Type} {p : α → γ} {r : α' → γ} {q : β → δ} {t : β' → δ}
    {x : Except ε α} {y : Except ε α'} {f : α → Except ε β} {g : α' → Except ε β'}
    (h : x.map p = y.map r)
    (hnext : ∀ a b, x = .ok a → p a = r b → (f a).map q = (g b).map t) :
    (x >>= f).map q = (y >>= g).map t := by
  cases x with
  | error fault =>
      rw [map_eq_error.mp h.symm]
      rfl
  | ok a =>
      rcases map_eq_ok.mp h.symm with ⟨b, rfl, hsame⟩
      exact hnext a b rfl hsame.symm

theorem exists_bind_iff {x : Except ε α} {f : α → Except ε β} :
    (∃ b, (x >>= f) = .ok b) ↔ ∃ a, x = .ok a ∧ ∃ b, f a = .ok b := by
  simp only [bind_eq_ok]
  constructor
  · rintro ⟨b, a, ha, hb⟩
    exact ⟨a, ha, b, hb⟩
  · rintro ⟨a, ha, b, hb⟩
    exact ⟨b, a, ha, hb⟩

theorem exists_map_iff {x : Except ε α} {f : α → β} :
    (∃ b, x.map f = .ok b) ↔ ∃ a, x = .ok a := by
  cases x with
  | error fault => simp [Except.map]
  | ok a => simp [Except.map]

theorem exists_of_any {x : Except ε α} {p : α → Bool} (h : x.toOption.any p = true) :
    ∃ a, x = .ok a ∧ p a = true := by
  cases x with
  | error fault => cases h
  | ok a => exact ⟨a, rfl, h⟩

theorem exists_of_isOk {x : Except ε α} (h : x.isOk = true) : ∃ a, x = .ok a := by
  cases x with
  | error fault => cases h
  | ok a => exact ⟨a, rfl⟩

theorem eq_ok_of_toOption {x : Except ε α} {a : α} (h : x.toOption = some a) : x = .ok a := by
  cases x with
  | error fault => cases h
  | ok b => rw [Option.some.inj h]

theorem mapM_eq_ok {l : List α} {f : α → Except ε β} {g : α → β} (h : ∀ a ∈ l, f a = .ok (g a)) :
    l.mapM f = .ok (l.map g) := by
  induction l with
  | nil => rfl
  | cons a rest ih =>
      have hrest := ih fun other hother => h other (List.mem_cons_of_mem _ hother)
      rw [List.mapM_cons, h a List.mem_cons_self, hrest]
      rfl

theorem exists_mapM_iff {l : List α} {f : α → Except ε β} :
    (∃ bs, l.mapM f = .ok bs) ↔ ∀ a ∈ l, ∃ b, f a = .ok b := by
  induction l with
  | nil => exact iff_of_true ⟨[], rfl⟩ (List.forall_mem_nil _)
  | cons a rest ih =>
      rw [List.forall_mem_cons, ← ih, List.mapM_cons]
      constructor
      · rintro ⟨bs, hbs⟩
        rcases bind_eq_ok.mp hbs with ⟨b, hb, hbs⟩
        rcases bind_eq_ok.mp hbs with ⟨others, hothers, -⟩
        exact ⟨⟨b, hb⟩, others, hothers⟩
      · rintro ⟨⟨b, hb⟩, others, hothers⟩
        rw [hb, hothers]
        exact ⟨b :: others, rfl⟩

theorem mapM_eq_ok_iff {l : List α} {f : α → Except ε β} {bs : List β} :
    l.mapM f = .ok bs ↔ List.Forall₂ (fun a b => f a = .ok b) l bs := by
  induction l generalizing bs with
  | nil =>
      rw [List.forall₂_nil_left_iff]
      exact ⟨fun h => by cases h; rfl, fun h => by rw [h]; rfl⟩
  | cons a rest ih =>
      rw [List.mapM_cons, List.forall₂_cons_left_iff, bind_eq_ok]
      constructor
      · rintro ⟨b, hb, hbs⟩
        rcases bind_eq_ok.mp hbs with ⟨others, hothers, hresult⟩
        cases hresult
        exact ⟨b, others, hb, ih.mp hothers, rfl⟩
      · rintro ⟨b, others, hb, hothers, rfl⟩
        exact ⟨b, hb, bind_eq_ok.mpr ⟨others, ih.mpr hothers, rfl⟩⟩

theorem mapM_perm {l l' : List α} {f : α → Except ε β} (h : l'.Perm l) {bs : List β}
    (hbs : l.mapM f = .ok bs) : ∃ bs', l'.mapM f = .ok bs' ∧ bs'.Perm bs := by
  rcases List.perm_comp_forall₂ h (mapM_eq_ok_iff.mp hbs) with ⟨bs', hbs', hperm⟩
  exact ⟨bs', mapM_eq_ok_iff.mpr hbs', hperm⟩

theorem allM_eq_ok {l : List α} {f : α → Except ε Bool} {p : α → Bool}
    (h : ∀ a ∈ l, f a = .ok (p a)) : l.allM f = .ok (l.all p) := by
  induction l with
  | nil => rfl
  | cons a rest ih =>
      have hrest := ih fun other hother => h other (List.mem_cons_of_mem _ hother)
      rw [List.allM, h a List.mem_cons_self, List.all_cons]
      cases hp : p a with
      | false => rfl
      | true => simpa [bind, Except.bind] using hrest

theorem anyM_eq_ok {l : List α} {f : α → Except ε Bool} {p : α → Bool}
    (h : ∀ a ∈ l, f a = .ok (p a)) : l.anyM f = .ok (l.any p) := by
  induction l with
  | nil => rfl
  | cons a rest ih =>
      have hrest := ih fun other hother => h other (List.mem_cons_of_mem _ hother)
      rw [List.anyM, h a List.mem_cons_self, List.any_cons]
      cases hp : p a with
      | false => simpa [bind, Except.bind] using hrest
      | true => rfl

theorem filterM_eq_ok {l : List α} {f : α → Except ε Bool} {p : α → Bool}
    (h : ∀ a ∈ l, f a = .ok (p a)) : l.filterM f = .ok (l.filter p) := by
  have haux : ∀ (l acc : List α), (∀ a ∈ l, f a = .ok (p a)) →
      List.filterAuxM f l acc = .ok ((l.filter p).reverse ++ acc) := by
    intro l
    induction l with
    | nil => exact fun acc _ => rfl
    | cons a rest ih =>
        intro acc hall
        have hrest := fun acc =>
          ih acc fun other hother => hall other (List.mem_cons_of_mem _ hother)
        rw [List.filterAuxM, hall a List.mem_cons_self]
        simp only [bind, Except.bind]
        cases hp : p a with
        | false => simp [hp, hrest]
        | true => simp [hp, hrest]
  rw [List.filterM, haux l [] h]
  simp [bind, Except.bind, pure, Except.pure]

/-- Steps of which each succeeds or fails whatever came before succeed if each does. -/
theorem exists_foldlM_iff {f : β → α → Except ε β} {P : α → Prop}
    (hstep : ∀ b a, (∃ b', f b a = .ok b') ↔ P a) {l : List α} {start : β} :
    (∃ last, l.foldlM f start = .ok last) ↔ ∀ a ∈ l, P a := by
  induction l generalizing start with
  | nil => exact iff_of_true ⟨start, rfl⟩ (List.forall_mem_nil _)
  | cons a rest ih =>
      rw [List.forall_mem_cons, ← hstep start, List.foldlM_cons, exists_bind_iff]
      constructor
      · rintro ⟨next, hnext, hlast⟩
        exact ⟨⟨next, hnext⟩, ih.mp hlast⟩
      · rintro ⟨⟨next, hnext⟩, hrest⟩
        exact ⟨next, hnext, ih.mpr hrest⟩

theorem foldlM_keeps {P : β → Prop} {f : β → α → Except ε β} {l : List α}
    (hstep : ∀ a ∈ l, ∀ b b', P b → f b a = .ok b' → P b') {start last : β} (hstart : P start)
    (h : l.foldlM f start = .ok last) : P last := by
  induction l generalizing start with
  | nil =>
      cases h
      exact hstart
  | cons a rest ih =>
      rw [List.foldlM_cons] at h
      rcases bind_eq_ok.mp h with ⟨next, hnext, hlast⟩
      exact ih (fun other hother => hstep other (List.mem_cons_of_mem _ hother))
        (hstep a List.mem_cons_self start next hstart hnext) hlast

/-!
## Steps that change a state
-/

section States

variable {σ : Type}

/-- A step that fails ends what was begun; the state as it is by then remains. -/
theorem run_bind (x : ExceptT ε (StateM σ) α) (f : α → ExceptT ε (StateM σ) β) (s : σ) :
    (x >>= f).run s =
      match x.run s with
      | (.ok a, s') => (f a).run s'
      | (.error fault, s') => (.error fault, s') := by
  change (ExceptT.bindCont f (x.run s).1) (x.run s).2 = _
  rcases x.run s with ⟨result, s'⟩
  cases result with
  | ok a => rfl
  | error fault => rfl

theorem run_bind_cases {x : ExceptT ε (StateM σ) α} {f : α → ExceptT ε (StateM σ) β} {s s' : σ}
    {result : Except ε β} (h : (x >>= f).run s = (result, s')) :
    (∃ fault, x.run s = (.error fault, s') ∧ result = .error fault) ∨
      ∃ a middle, x.run s = (.ok a, middle) ∧ (f a).run middle = (result, s') := by
  rw [run_bind] at h
  rcases hx : x.run s with ⟨first, middle⟩
  rw [hx] at h
  cases first with
  | error fault =>
      cases h
      exact Or.inl ⟨fault, rfl, rfl⟩
  | ok a => exact Or.inr ⟨a, middle, rfl, h⟩

theorem run_tryCatch (x : ExceptT ε (StateM σ) α) (handle : ε → ExceptT ε (StateM σ) α) (s : σ) :
    (tryCatch x handle).run s =
      match x.run s with
      | (.ok a, s') => (.ok a, s')
      | (.error fault, s') => (handle fault).run s' := by
  change (match (x.run s).1 with
    | .ok a => (pure (.ok a) : StateM σ (Except ε α))
    | .error fault => (handle fault).run) (x.run s).2 = _
  rcases x.run s with ⟨result, s'⟩
  cases result with
  | ok a => rfl
  | error fault => rfl

theorem run_get (s : σ) : (get : ExceptT ε (StateM σ) σ).run s = (.ok s, s) := rfl

theorem run_set (new s : σ) : (set new : ExceptT ε (StateM σ) PUnit).run s = (.ok ⟨⟩, new) := rfl

theorem run_modify (f : σ → σ) (s : σ) :
    (modify f : ExceptT ε (StateM σ) PUnit).run s = (.ok ⟨⟩, f s) := rfl

theorem run_liftM (x : Except ε α) (s : σ) :
    (liftM x : ExceptT ε (StateM σ) α).run s = (x, s) := by
  cases x with
  | ok a => rfl
  | error fault => rfl

end States

/-!
## Results and faults of a kind
-/

section Meets

variable {ε' γ : Type} {P : ε → Prop} {P' : ε' → Prop} {Q : α → Prop} {R : β → Prop}

/-- A step that succeeds gives a result of one kind, and one that fails a fault of another. -/
def Meets (P : ε → Prop) (Q : α → Prop) : Except ε α → Prop
  | .ok a => Q a
  | .error fault => P fault

theorem Meets.mono {Q' : α → Prop} {x : Except ε α} (hx : Meets P Q x) (h : ∀ a, Q a → Q' a) :
    Meets P Q' x := by
  cases x with
  | ok a => exact h a hx
  | error fault => exact hx

theorem Meets.bind {x : Except ε α} {f : α → Except ε β} (hx : Meets P Q x)
    (hf : ∀ a, Q a → Meets P R (f a)) : Meets P R (x >>= f) := by
  cases x with
  | ok a => exact hf a hx
  | error fault => exact hx

theorem Meets.map {x : Except ε α} {f : α → β} (hx : Meets P Q x) (hf : ∀ a, Q a → R (f a)) :
    Meets P R (x.map f) := by
  cases x with
  | ok a => exact hf a hx
  | error fault => exact hx

theorem Meets.mapError {x : Except ε α} {f : ε → ε'} (hx : Meets P Q x)
    (hf : ∀ fault, P fault → P' (f fault)) : Meets P' Q (x.mapError f) := by
  cases x with
  | ok a => exact hx
  | error fault => exact hf fault hx

theorem Meets.mapM {f : α → Except ε β} {as : List α} (h : ∀ a ∈ as, Meets P R (f a)) :
    Meets P (fun bs => ∀ b ∈ bs, R b) (as.mapM f) := by
  induction as with
  | nil => exact List.forall_mem_nil R
  | cons a rest ih =>
      rw [List.mapM_cons]
      refine (h a List.mem_cons_self).bind fun b hb => ?_
      refine (ih fun other hother => h other (List.mem_cons_of_mem _ hother)).bind fun bs hbs => ?_
      exact List.forall_mem_cons.mpr ⟨hb, hbs⟩

end Meets
end Steps
end Roster

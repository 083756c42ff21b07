import Mathlib.Data.List.Perm.Basic

/-!
# Taking apart what succeeded

Every stage of a compilation may fail, so a fact about a result starts from the equation that says
it was reached. These lemmas turn such an equation into one for each step on the way: a step that
was bound to a next one, a result that was mapped, and a list whose items were computed one by one,
which `List.mapM_eq_ok` lines up with their results.

Where the question is what can go wrong, a fact is about the errors as well: `Except.EndsIn` says
what a computation may end in either way, and is put together along the computation's own steps. And
where two computations are compared, `Except.Rel` says that they end in the same way, step by step
too.
-/

namespace Except

variable {ε ε' α β : Type}

theorem bind_eq_ok {x : Except ε α} {f : α → Except ε β} {b : β} :
    (x >>= f) = .ok b ↔ ∃ a, x = .ok a ∧ f a = .ok b := by
  constructor
  · intro h
    cases x with
    | error e => cases h
    | ok a => exact ⟨a, rfl, h⟩
  · rintro ⟨a, rfl, h⟩
    exact h

theorem bind_of_eq_ok {x : Except ε α} {a : α} (h : x = .ok a) (f : α → Except ε β) :
    (x >>= f) = f a := by
  rw [h]
  rfl

theorem bind_of_eq_error {x : Except ε α} {e : ε} (h : x = .error e) {f : α → Except ε β} :
    (x >>= f) = .error e := by
  rw [h]
  rfl

theorem map_eq_ok {x : Except ε α} {f : α → β} {b : β} :
    x.map f = .ok b ↔ ∃ a, x = .ok a ∧ f a = b := by
  cases x with
  | error e => simp [Except.map]
  | ok a => simp [Except.map]

theorem mapError_eq_ok {x : Except ε α} {f : ε → ε'} {a : α} :
    x.mapError f = .ok a ↔ x = .ok a := by
  cases x with
  | error e => simp [Except.mapError]
  | ok b => simp [Except.mapError]

theorem pure_eq_ok {a b : α} : (pure a : Except ε α) = .ok b ↔ a = b := by
  rw [show (pure a : Except ε α) = .ok a from rfl, Except.ok.injEq]

/-- The computation ends in a value with the one property or in an error with the other. -/
def EndsIn (x : Except ε α) (P : α → Prop) (F : ε → Prop) : Prop :=
  match x with
  | .ok a => P a
  | .error e => F e

namespace EndsIn

variable {x : Except ε α} {P : α → Prop} {F : ε → Prop}

theorem of_eq_ok {a : α} (h : x = .ok a) (ha : P a) : x.EndsIn P F := by
  rw [h]
  exact ha

theorem of_eq_error {e : ε} (h : x = .error e) (he : F e) : x.EndsIn P F := by
  rw [h]
  exact he

theorem mono {Q : α → Prop} {G : ε → Prop} (h : x.EndsIn P F) (hvalue : ∀ a, P a → Q a)
    (herror : ∀ e, F e → G e) : x.EndsIn Q G := by
  cases x with
  | error e => exact herror e h
  | ok a => exact hvalue a h

theorem mono_error {G : ε → Prop} (h : x.EndsIn P F) (herror : ∀ e, F e → G e) : x.EndsIn P G :=
  h.mono (fun _ ha => ha) herror

/-- A step that is known to have a value is passed. -/
theorem after {f : α → Except ε β} {a : α} {Q : β → Prop} (h : x = .ok a)
    (hf : (f a).EndsIn Q F) : (x >>= f).EndsIn Q F := by
  rw [h]
  exact hf

theorem bind {f : α → Except ε β} {Q : β → Prop} (h : x.EndsIn P F)
    (hf : ∀ a, x = .ok a → P a → (f a).EndsIn Q F) : (x >>= f).EndsIn Q F := by
  cases x with
  | error e => exact h
  | ok a => exact hf a rfl h

theorem map {f : α → β} {Q : β → Prop} (h : x.EndsIn P F)
    (hf : ∀ a, x = .ok a → P a → Q (f a)) : (x.map f).EndsIn Q F := by
  cases x with
  | error e => exact h
  | ok a => exact hf a rfl h

/-- A computation that has no error to end in has a value. -/
theorem exists_ok (h : x.EndsIn P fun _ => False) : ∃ a, x = .ok a ∧ P a := by
  cases x with
  | error e => exact h.elim
  | ok a => exact ⟨a, rfl, h⟩

end EndsIn

/-- Two computations end in the same way: in values that belong together, or in errors that do. -/
inductive Rel (S : ε → ε' → Prop) (R : α → β → Prop) : Except ε α → Except ε' β → Prop
  | error {e : ε} {f : ε'} (h : S e f) : Rel S R (.error e) (.error f)
  | ok {a : α} {b : β} (h : R a b) : Rel S R (.ok a) (.ok b)

namespace Rel

theorem refl {S : ε → ε → Prop} [Std.Refl S] (x : Except ε α) : Rel S Eq x x := by
  cases x with
  | error e => exact .error (Std.Refl.refl e)
  | ok a => exact .ok rfl

/-- Computations that end in the very same error or value are the same. -/
theorem eq {x y : Except ε α} (h : Rel Eq Eq x y) : x = y := by
  cases h with
  | error he => rw [he]
  | ok ha => rw [ha]

theorem bind {S : ε → ε' → Prop} {R : α → β → Prop} {γ δ : Type} {Q : γ → δ → Prop}
    {x : Except ε α} {y : Except ε' β} {f : α → Except ε γ} {g : β → Except ε' δ}
    (h : Rel S R x y) (hfg : ∀ a b, R a b → Rel S Q (f a) (g b)) : Rel S Q (x >>= f) (y >>= g) := by
  cases h with
  | error he => exact .error he
  | ok ha => exact hfg _ _ ha

/-- A step that both computations share. -/
theorem after {S : ε → ε → Prop} [Std.Refl S] {γ δ : Type} {Q : γ → δ → Prop} (x : Except ε α)
    {f : α → Except ε γ} {g : α → Except ε δ} (hfg : ∀ a, Rel S Q (f a) (g a)) :
    Rel S Q (x >>= f) (x >>= g) := by
  refine (refl x).bind ?_
  intro a b hab
  rw [hab]
  exact hfg b

/-- A step that both computations share, when it matters what came out of it. -/
theorem after_eq {S : ε → ε → Prop} [Std.Refl S] {γ δ : Type} {Q : γ → δ → Prop}
    (x : Except ε α) {f : α → Except ε γ} {g : α → Except ε δ}
    (hfg : ∀ a, x = .ok a → Rel S Q (f a) (g a)) : Rel S Q (x >>= f) (x >>= g) := by
  cases x with
  | error e => exact .error (Std.Refl.refl e)
  | ok a => exact hfg a rfl

theorem map {S : ε → ε' → Prop} {R : α → β → Prop} {γ δ : Type} {Q : γ → δ → Prop}
    {x : Except ε α} {y : Except ε' β} {f : α → γ} {g : β → δ} (h : Rel S R x y)
    (hfg : ∀ a b, R a b → Q (f a) (g b)) : Rel S Q (x.map f) (y.map g) := by
  cases h with
  | error he => exact .error he
  | ok ha => exact .ok (hfg _ _ ha)

theorem map_eq {S : ε → ε → Prop} [Std.Refl S] {γ δ : Type} {Q : γ → δ → Prop}
    {x : Except ε α} {f : α → γ} {g : α → δ} (hfg : ∀ a, x = .ok a → Q (f a) (g a)) :
    Rel S Q (x.map f) (x.map g) := by
  cases x with
  | error e => exact .error (Std.Refl.refl e)
  | ok a => exact .ok (hfg a rfl)

theorem ok_or_error {S : ε → ε' → Prop} {R : α → β → Prop} {x : Except ε α} {y : Except ε' β}
    (h : Rel S R x y) : (∃ a b, x = .ok a ∧ y = .ok b ∧ R a b) ∨
      ∃ e f, x = .error e ∧ y = .error f ∧ S e f := by
  cases h with
  | error he => exact .inr ⟨_, _, rfl, rfl, he⟩
  | ok ha => exact .inl ⟨_, _, rfl, rfl, ha⟩

end Rel

theorem exists_of_any {x : Except ε α} (test : α → Bool) (h : x.toOption.any test = true) :
    ∃ a, x = .ok a ∧ test a = true := by
  cases x with
  | error e => cases h
  | ok a => exact ⟨a, rfl, h⟩

theorem exists_of_isOk {x : Except ε α} (h : x.isOk = true) : ∃ a, x = .ok a := by
  cases x with
  | error e => cases h
  | ok a => exact ⟨a, rfl⟩

end Except

namespace List

variable {ε α β : Type}

theorem mapM_eq_ok {f : α → Except ε β} {l : List α} {bs : List β} :
    l.mapM f = .ok bs ↔ List.Forall₂ (fun a b => f a = .ok b) l bs := by
  induction l generalizing bs with
  | nil =>
      rw [List.mapM_nil, Except.pure_eq_ok, List.forall₂_nil_left_iff]
      exact eq_comm
  | cons a rest ih =>
      rw [List.mapM_cons, Except.bind_eq_ok]
      constructor
      · rintro ⟨b, hb, h⟩
        obtain ⟨bs', hrest, h⟩ := Except.bind_eq_ok.1 h
        cases Except.pure_eq_ok.1 h
        exact .cons hb (ih.1 hrest)
      · rintro (_ | ⟨hb, hrest⟩)
        exact ⟨_, hb, Except.bind_eq_ok.2 ⟨_, ih.2 hrest, rfl⟩⟩

theorem mapM_congr {f g : α → Except ε β} {l m : List α}
    (h : List.Forall₂ (fun a b => f a = g b) l m) : l.mapM f = m.mapM g := by
  induction h with
  | nil => rfl
  | cons hab _ ih => rw [List.mapM_cons, List.mapM_cons, hab, ih]

/-- Items that belong together, done one by one on either side. -/
theorem rel_mapM {ε' γ δ : Type} {S : ε → ε' → Prop} {Q : γ → δ → Prop} {f : α → Except ε γ}
    {g : β → Except ε' δ} {l : List α} {m : List β}
    (h : List.Forall₂ (fun a b => Except.Rel S Q (f a) (g b)) l m) :
    Except.Rel S (List.Forall₂ Q) (l.mapM f) (m.mapM g) := by
  induction h with
  | nil => exact .ok .nil
  | cons hab _ ih =>
      rw [List.mapM_cons, List.mapM_cons]
      refine hab.bind fun c d hcd => ih.bind fun cs ds hrest => ?_
      exact .ok (.cons hcd hrest)

/-- Items that each end in a value of their own or in an error of one kind, done one by one. -/
theorem endsIn_mapM {f : α → Except ε β} {l : List α} {R : α → β → Prop} {F : ε → Prop}
    (h : ∀ a ∈ l, (f a).EndsIn (R a) F) : (l.mapM f).EndsIn (List.Forall₂ R l) F := by
  induction l with
  | nil => exact .nil
  | cons a rest ih =>
      obtain ⟨ha, hrest⟩ := List.forall_mem_cons.1 h
      rw [List.mapM_cons]
      refine ha.bind fun b _ hb => ?_
      refine (ih hrest).bind fun bs _ hbs => ?_
      exact List.Forall₂.cons hb hbs

/-- The items before the first one that fails have their values. -/
theorem exists_of_mapM_eq_error {f : α → Except ε β} {l : List α} {e : ε}
    (h : l.mapM f = .error e) : ∃ front a back, l = front ++ a :: back ∧
      (∀ b ∈ front, ∃ y, f b = .ok y) ∧ f a = .error e := by
  induction l with
  | nil => cases h
  | cons x rest ih =>
      rw [List.mapM_cons] at h
      cases hx : f x with
      | error e' =>
          rw [hx] at h
          cases h
          exact ⟨[], x, rest, rfl, List.forall_mem_nil _, hx⟩
      | ok y =>
          cases hrest : rest.mapM f with
          | error e' =>
              rw [hx, hrest] at h
              cases h
              obtain ⟨front, a, back, rfl, hfront, ha⟩ := ih hrest
              exact ⟨x :: front, a, back, rfl, List.forall_mem_cons.2 ⟨⟨y, hx⟩, hfront⟩, ha⟩
          | ok bs =>
              rw [hx, hrest] at h
              cases h

/-- Items done one by one in another order have the same results in another order, or the same error
if there is only one that they can have. -/
theorem rel_mapM_of_perm {f : α → Except ε β} {l m : List α} {only : ε} (h : l.Perm m)
    (herror : ∀ a ∈ l, ∀ e, f a = .error e → e = only) :
    Except.Rel Eq List.Perm (l.mapM f) (m.mapM f) := by
  have hfail : ∀ {items : List α} {e : ε}, (∀ a ∈ items, a ∈ l) → items.mapM f = .error e →
      e = only := by
    intro items e hsub hitems
    obtain ⟨front, a, back, rfl, -, ha⟩ := exists_of_mapM_eq_error hitems
    exact herror a (hsub a (List.mem_append_right _ (List.mem_cons_self ..))) e ha
  cases hl : l.mapM f with
  | ok bs =>
      obtain ⟨cs, hcs, hperm⟩ := List.perm_comp_forall₂ h.symm (mapM_eq_ok.1 hl)
      rw [mapM_eq_ok.2 hcs]
      exact .ok hperm.symm
  | error e =>
      cases hm : m.mapM f with
      | ok cs =>
          obtain ⟨bs, hbs, -⟩ := List.perm_comp_forall₂ h (mapM_eq_ok.1 hm)
          cases hl.symm.trans (mapM_eq_ok.2 hbs)
      | error e' =>
          rw [hfail (fun _ ha => ha) hl, hfail (fun _ ha => h.mem_iff.2 ha) hm]
          exact .error rfl

theorem mapM_append_cons_eq_error {f : α → Except ε β} {front : List α} {a : α} {e : ε}
    (hfront : ∀ b ∈ front, ∃ y, f b = .ok y) (ha : f a = .error e) (back : List α) :
    (front ++ a :: back).mapM f = .error e := by
  induction front with
  | nil =>
      rw [List.nil_append, List.mapM_cons, ha]
      rfl
  | cons b rest ih =>
      obtain ⟨⟨y, hy⟩, hrest⟩ := List.forall_mem_cons.1 hfront
      rw [List.cons_append, List.mapM_cons, hy, ih hrest]
      rfl

/-- A list read back item by item is the list that was written item by item. -/
theorem mapM_map_eq_some {f : α → β} {g : β → Option α} (h : ∀ a, g (f a) = some a) (l : List α) :
    (l.map f).mapM g = some l := by
  induction l with
  | nil => rfl
  | cons a rest ih =>
      rw [List.map_cons, List.mapM_cons, h, ih]
      rfl

theorem Forall₂.exists_of_getElem? {R : α → β → Prop} {l : List α} {bs : List β}
    (h : List.Forall₂ R l bs) {i : Nat} {b : β} (hb : bs[i]? = some b) :
    ∃ a, l[i]? = some a ∧ R a b := by
  induction h generalizing i with
  | nil => cases hb
  | cons hab _ ih =>
      cases i with
      | zero =>
          cases hb
          exact ⟨_, rfl, hab⟩
      | succ i => exact ih hb

theorem Forall₂.exists_of_head? {R : α → β → Prop} {l : List α} {bs : List β}
    (h : List.Forall₂ R l bs) {a : α} (ha : l.head? = some a) :
    ∃ b, bs.head? = some b ∧ R a b := by
  rw [List.head?_eq_getElem?] at ha ⊢
  exact h.flip.exists_of_getElem? ha

theorem Forall₂.exists_of_getLast? {R : α → β → Prop} {l : List α} {bs : List β}
    (h : List.Forall₂ R l bs) {a : α} (ha : l.getLast? = some a) :
    ∃ b, bs.getLast? = some b ∧ R a b := by
  rw [List.getLast?_eq_getElem?, h.length_eq] at ha
  rw [List.getLast?_eq_getElem?]
  exact h.flip.exists_of_getElem? ha

theorem Forall₂.exists_of_mem {R : α → β → Prop} {l : List α} {bs : List β}
    (h : List.Forall₂ R l bs) {a : α} (ha : a ∈ l) : ∃ b ∈ bs, R a b := by
  induction h with
  | nil => cases ha
  | cons hab _ ih =>
      rcases List.mem_cons.1 ha with rfl | ha
      · exact ⟨_, List.mem_cons_self .., hab⟩
      · obtain ⟨b, hb, hab⟩ := ih ha
        exact ⟨b, List.mem_cons_of_mem _ hb, hab⟩

theorem Forall₂.imp_of_mem {R S : α → β → Prop} {l : List α} {bs : List β}
    (h : List.Forall₂ R l bs) (himp : ∀ a ∈ l, ∀ b ∈ bs, R a b → S a b) : List.Forall₂ S l bs := by
  induction h with
  | nil => exact .nil
  | @cons a b l bs hab _ ih =>
      refine .cons (himp a (List.mem_cons_self ..) b (List.mem_cons_self ..) hab) (ih ?_)
      intro x hx y hy
      exact himp x (List.mem_cons_of_mem _ hx) y (List.mem_cons_of_mem _ hy)

theorem Forall₂.map_eq_map {γ : Type} {f : α → γ} {g : β → γ} {l : List α} {bs : List β}
    (h : List.Forall₂ (fun a b => f a = g b) l bs) : l.map f = bs.map g := by
  rw [← List.forall₂_eq_eq_eq, List.forall₂_map_left_iff, List.forall₂_map_right_iff]
  exact h

/-- At each place there are two items that belong together, or none. -/
theorem Forall₂.rel_getElem? {R : α → β → Prop} {l : List α} {bs : List β}
    (h : List.Forall₂ R l bs) (i : Nat) : Option.Rel R l[i]? bs[i]? := by
  induction h generalizing i with
  | nil => exact .none
  | cons hab _ ih =>
      cases i with
      | zero => exact .some hab
      | succ i => exact ih i

end List

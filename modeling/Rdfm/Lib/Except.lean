import Mathlib.Data.List.Forall2

/-!
# Fallible computations in `Except` and `Option`

Inversion of a successful bind, and of a loop that runs a fallible function over a list
(`mapM_ok_iff`): it succeeds exactly when every call does, with the results in order. In `Option`,
a list that was encoded item by item is decoded so too (`mapM_map_eq_some`).
-/

namespace Rdfm.Lib

variable {ε α β γ : Type}

theorem bind_ok_iff {x : Except ε α} {f : α → Except ε β} {b : β} :
    x >>= f = .ok b ↔ ∃ a, x = .ok a ∧ f a = .ok b := by
  cases x with
  | error e => simp [bind, Except.bind]
  | ok a => simp [bind, Except.bind]

theorem mapM_ok_iff {f : α → Except ε β} {l : List α} {r : List β} :
    l.mapM f = .ok r ↔ List.Forall₂ (fun a b => f a = .ok b) l r := by
  induction l generalizing r with
  | nil => simp [pure, Except.pure, eq_comm]
  | cons a l ih =>
    rw [List.mapM_cons, bind_ok_iff]
    constructor
    · rintro ⟨b, hb, h⟩
      obtain ⟨bs, hbs, h⟩ := bind_ok_iff.1 h
      simp only [pure, Except.pure, Except.ok.injEq] at h
      subst h
      exact .cons hb (ih.1 hbs)
    · rintro (_ | ⟨hb, hbs⟩)
      exact ⟨_, hb, bind_ok_iff.2 ⟨_, ih.2 hbs, rfl⟩⟩

/-- What a successful loop produced, element by element. -/
theorem mem_of_mapM_ok {f : α → Except ε β} {l : List α} {r : List β} (h : l.mapM f = .ok r)
    {b : β} : b ∈ r ↔ ∃ a ∈ l, f a = .ok b := by
  have h₂ := mapM_ok_iff.1 h
  clear h
  induction h₂ with
  | nil => simp
  | @cons a b' l r hab _ ih =>
    simp only [List.mem_cons, ih]
    constructor
    · rintro (rfl | ⟨a', ha', hb⟩)
      · exact ⟨a, .inl rfl, hab⟩
      · exact ⟨a', .inr ha', hb⟩
    · rintro ⟨a', rfl | ha', hb⟩
      · rw [hab, Except.ok.injEq] at hb
        exact .inl hb.symm
      · exact .inr ⟨a', ha', hb⟩

/-- Every element of a successful loop was handled. -/
theorem exists_of_mapM_ok {f : α → Except ε β} {l : List α} {r : List β} (h : l.mapM f = .ok r)
    {a : α} (ha : a ∈ l) : ∃ b ∈ r, f a = .ok b := by
  have h₂ := mapM_ok_iff.1 h
  clear h
  induction h₂ with
  | nil => cases ha
  | @cons a' b l r hab _ ih =>
    rcases List.mem_cons.1 ha with rfl | ha
    · exact ⟨b, List.mem_cons_self, hab⟩
    · obtain ⟨b', hb', h⟩ := ih ha
      exact ⟨b', List.mem_cons_of_mem _ hb', h⟩

theorem mapM_ok_of_forall {f : α → Except ε β} {l : List α} (h : ∀ a ∈ l, ∃ b, f a = .ok b) :
    ∃ r, l.mapM f = .ok r := by
  induction l with
  | nil => exact ⟨[], rfl⟩
  | cons a l ih =>
    obtain ⟨b, hb⟩ := h a List.mem_cons_self
    obtain ⟨r, hr⟩ := ih fun a' ha' => h a' (List.mem_cons_of_mem _ ha')
    exact ⟨b :: r, mapM_ok_iff.2 (.cons hb (mapM_ok_iff.1 hr))⟩

/-- A loop for its errors only. -/
theorem forM_ok_iff {f : α → Except ε Unit} {l : List α} :
    l.forM f = .ok () ↔ ∀ a ∈ l, f a = .ok () := by
  induction l with
  | nil => simp [pure, Except.pure]
  | cons a l ih =>
    rw [List.forM_eq_forM, List.forM_cons, bind_ok_iff, List.forall_mem_cons, ← ih]
    constructor
    · rintro ⟨⟨⟩, ha, hl⟩
      exact ⟨ha, hl⟩
    · rintro ⟨ha, hl⟩
      exact ⟨(), ha, hl⟩

/-! ## Loops in `Option` -/

theorem mapM_some (l : List α) : l.mapM some = some l := by
  induction l with
  | nil => rfl
  | cons a l ih => simp [ih]

theorem mapM_isSome {f : α → Option β} {l : List α} :
    (l.mapM f).isSome ↔ ∀ a ∈ l, (f a).isSome := by
  induction l with
  | nil => simp
  | cons a l ih =>
    rw [List.forall_mem_cons, ← ih]
    cases ha : f a <;> cases hl : l.mapM f <;> simp [ha, hl]

theorem forall₂_of_mapM_some {f : α → Option β} {l : List α} {r : List β}
    (h : l.mapM f = some r) : List.Forall₂ (fun a b => f a = some b) l r := by
  induction l generalizing r with
  | nil =>
    cases h
    exact .nil
  | cons a l ih =>
    rw [List.mapM_cons] at h
    obtain ⟨b, hb, h⟩ := Option.bind_eq_some_iff.mp h
    obtain ⟨rest, hrest, h⟩ := Option.bind_eq_some_iff.mp h
    cases h
    exact .cons hb (ih hrest)

theorem mapM_eq_none_of_mem {f : α → Option β} {l : List α} {a : α} (ha : a ∈ l)
    (h : f a = none) : l.mapM f = none := by
  rw [← Option.not_isSome_iff_eq_none, mapM_isSome]
  intro hsome
  have ha' := hsome a ha
  rw [h] at ha'
  cases ha'

/-- Decoding after encoding, item by item. -/
theorem mapM_map_eq_some {f : α → Option β} {encode : α → γ} {decode : γ → Option β} {l : List α}
    {l' : List β} (hitem : ∀ a ∈ l, ∀ b, f a = some b → decode (encode a) = some b)
    (h : l.mapM f = some l') : (l.map encode).mapM decode = some l' := by
  induction l generalizing l' with
  | nil => simpa using h
  | cons a l ih =>
    simp only [List.mapM_cons, Option.pure_def, Option.bind_eq_bind, Option.bind_eq_some_iff,
      Option.some.injEq] at h
    obtain ⟨b, hb, rest, hrest, rfl⟩ := h
    have hhead := hitem a List.mem_cons_self b hb
    have htail := ih (fun a ha => hitem a (List.mem_cons_of_mem _ ha)) hrest
    simp [hhead, htail]

end Rdfm.Lib

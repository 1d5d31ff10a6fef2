/-
# Steps of work that succeed

What a step of work with events comes to in the end does not depend on the events.  So a step
made up of others succeeds exactly if they do, and what every step of a sequence preserves is
preserved by the sequence.
-/
import Concolic.Log.Traced
import Mathlib.Tactic.Common

namespace Concolic.Traced

variable {ε α β γ : Type}

lemma result_bind_eq_ok_iff {x : Traced ε α} {f : α → Traced ε β} {b : β} :
    (x >>= f).result = .ok b ↔ ∃ a, x.result = .ok a ∧ (f a).result = .ok b := by
  rw [result_bind]
  rcases x.result with e | a
  · simp [Except.bind]
  · simp [Except.bind]

/-- What every step preserves is preserved by the steps for all entries of a list. -/
lemma result_foldlM_induction {p : β → Prop} {f : β → γ → Traced ε β} {l : List γ} {b b' : β}
    (hstep : ∀ b c b', p b → (f b c).result = .ok b' → p b') (hb : p b)
    (h : (l.foldlM f b).result = .ok b') : p b' := by
  induction l generalizing b with
  | nil =>
    obtain rfl := Except.ok.inj h
    exact hb
  | cons c l ih =>
    obtain ⟨b₁, hb₁, hrest⟩ := result_bind_eq_ok_iff.mp h
    exact ih (hstep b c b₁ hb hb₁) hrest

/-- Each step reads an entry and adds it, unless the key of the entry is taken.  So all steps
succeed exactly if the keys of the entries differ from each other and none was taken before. -/
lemma result_foldlM_eq_ok_iff {δ κ : Type} (key : δ → κ) (taken : β → κ → Prop)
    {f : β → γ → Traced ε β} {reads : γ → δ → Prop} {extend : β → δ → β}
    (hstep : ∀ b c b', (f b c).result = .ok b' ↔
      ∃ d, reads c d ∧ ¬ taken b (key d) ∧ b' = extend b d)
    (htaken : ∀ b d k, taken (extend b d) k ↔ k = key d ∨ taken b k) {l : List γ} {b b' : β} :
    (l.foldlM f b).result = .ok b' ↔ ∃ ds, List.Forall₂ reads l ds ∧ (ds.map key).Nodup ∧
      (∀ d ∈ ds, ¬ taken b (key d)) ∧ b' = ds.foldl extend b := by
  induction l generalizing b with
  | nil =>
    constructor
    · intro h
      obtain rfl := Except.ok.inj h
      exact ⟨[], .nil, by simp, by simp, rfl⟩
    · rintro ⟨ds, hds, -, -, rfl⟩
      cases hds
      rfl
  | cons c l ih =>
    rw [List.foldlM_cons, result_bind_eq_ok_iff]
    simp only [hstep, ih]
    constructor
    · rintro ⟨_, ⟨d, hd, hfree, rfl⟩, ds, hds, hnodup, hall, rfl⟩
      simp only [htaken, not_or] at hall
      refine ⟨d :: ds, .cons hd hds, ?_, ?_, rfl⟩
      · rw [List.map_cons, List.nodup_cons]
        refine ⟨fun hmem => ?_, hnodup⟩
        obtain ⟨d', hd', hkey⟩ := List.mem_map.mp hmem
        exact (hall d' hd').1 hkey
      · exact List.forall_mem_cons.mpr ⟨hfree, fun d' hd' => (hall d' hd').2⟩
    · rintro ⟨_ | ⟨d, ds⟩, hds, hnodup, hall, rfl⟩
      · cases hds
      · obtain ⟨hd, hds⟩ := List.forall₂_cons.mp hds
        rw [List.map_cons, List.nodup_cons] at hnodup
        obtain ⟨hfree, hall⟩ := List.forall_mem_cons.mp hall
        refine ⟨_, ⟨d, hd, hfree, rfl⟩, ds, hds, hnodup.2, ?_, rfl⟩
        intro d' hd'
        rw [htaken, not_or]
        exact ⟨fun hkey => hnodup.1 (hkey ▸ List.mem_map_of_mem hd'), hall d' hd'⟩

/-- Entries that the steps do not tell apart lead to the same work. -/
lemma foldlM_congr {R : γ → γ → Prop} {f : β → γ → Traced ε β} {l l' : List γ}
    (hf : ∀ b c c', R c c' → f b c = f b c') (h : List.Forall₂ R l l') (b : β) :
    l.foldlM f b = l'.foldlM f b := by
  induction h generalizing b with
  | nil => rfl
  | cons hc _ ih =>
    rw [List.foldlM_cons, List.foldlM_cons, hf b _ _ hc]
    exact congrArg _ (funext ih)

/-- Up to an entry, the steps succeed as they do for entries that are not told apart.  If then
the step for this entry fails, all steps fail with its error. -/
lemma result_foldlM_changed {R : γ → γ → Prop} {f : β → γ → Traced ε β} {l l' r' : List γ}
    {c' : γ} {b b' : β} (hf : ∀ b c c', R c c' → f b c = f b c')
    (hl : List.Forall₂ R l l') (h : ((l' ++ c' :: r').foldlM f b).result = .ok b') :
    ∃ b₁ b₂, (f b₁ c').result = .ok b₂ ∧ ∀ c r e, (f b₁ c).result = .error e →
      ((l ++ c :: r).foldlM f b).result = .error e := by
  induction hl generalizing b with
  | nil =>
    obtain ⟨b₂, hb₂, -⟩ := result_bind_eq_ok_iff.mp h
    refine ⟨b, b₂, hb₂, fun c r e he => ?_⟩
    rw [List.nil_append, List.foldlM_cons, result_bind, he]
    rfl
  | cons hd _ ih =>
    obtain ⟨b₀, hb₀, h⟩ := result_bind_eq_ok_iff.mp h
    obtain ⟨b₁, b₂, hb₂, herror⟩ := ih h
    refine ⟨b₁, b₂, hb₂, fun c r e he => ?_⟩
    rw [List.cons_append, List.foldlM_cons, result_bind, hf b _ _ hd, hb₀]
    exact herror c r e he

end Concolic.Traced

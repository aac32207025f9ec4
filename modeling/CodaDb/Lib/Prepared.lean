import Mathlib.Tactic.Lemma

/-!
# A memo and an artefact built from it

An object that is edited and then used often keeps two things derived from its current contents:
a memo of a rendering `α` and an artefact `β` built from the rendering, with a flag that says the
artefact is out of date. Edits change what the rendering and the artefact should be; they must
`invalidate`. `Coherent gen make` says that whatever is kept and not marked stale is the rendering
`gen` and the artefact `make` of the current contents.
-/

universe u v

structure Prepared (α : Type u) (β : Type v) where
  memo : Option α := none
  dirty : Bool := false
  held : Option β := none

namespace Prepared

variable {α : Type u} {β : Type v}

/-- Forget the memo and mark the artefact stale. -/
def invalidate (c : Prepared α β) : Prepared α β := { c with memo := none, dirty := true }

/-- The rendering handed out: the memo if there is one. -/
def text (c : Prepared α β) (gen : α) : α := c.memo.getD gen

/-- Hand out the rendering and remember it. -/
def render (c : Prepared α β) (gen : α) : Prepared α β := { c with memo := some (c.text gen) }

/-- The artefact has to be built again before it is used. -/
def stale (c : Prepared α β) : Bool := c.held.isNone || c.dirty

/-- Render, build the artefact again if it is stale, and use it. -/
def refresh (c : Prepared α β) (gen : α) (make : α → β) : Prepared α β :=
  if c.stale then { memo := some (c.text gen), dirty := false, held := some (make (c.text gen)) }
  else c.render gen

/-- Everything kept and not marked stale belongs to the current contents. -/
structure Coherent (gen : α) (make : α → β) (c : Prepared α β) : Prop where
  memo : ∀ a, c.memo = some a → a = gen
  held : ∀ b, c.dirty = false → c.held = some b → b = make gen

lemma coherent_new (gen : α) (make : α → β) : Coherent gen make ({} : Prepared α β) :=
  ⟨by simp, by simp⟩

/-- After `invalidate` nothing is claimed, whatever the contents have become. -/
lemma coherent_invalidate (gen : α) (make : α → β) (c : Prepared α β) :
    Coherent gen make c.invalidate :=
  ⟨by simp [invalidate], by simp [invalidate]⟩

lemma Coherent.text_eq {gen : α} {make : α → β} {c : Prepared α β} (h : Coherent gen make c) :
    c.text gen = gen := by
  rw [text]
  cases hm : c.memo with
  | none => rfl
  | some a => exact h.memo a hm

lemma Coherent.render {gen : α} {make : α → β} {c : Prepared α β} (h : Coherent gen make c) :
    Coherent gen make (c.render gen) := by
  refine ⟨?_, h.held⟩
  intro a ha
  rw [← h.text_eq]
  exact (Option.some.inj ha).symm

lemma Coherent.refresh {gen : α} {make : α → β} {c : Prepared α β} (h : Coherent gen make c) :
    Coherent gen make (c.refresh gen make) := by
  rw [Prepared.refresh]
  split
  · rw [h.text_eq]
    exact ⟨fun a ha => (Option.some.inj ha).symm, fun b _ hb => (Option.some.inj hb).symm⟩
  · exact h.render

/-- The artefact a coherent object uses is the one its current contents call for. -/
theorem Coherent.held_refresh {gen : α} {make : α → β} {c : Prepared α β}
    (h : Coherent gen make c) : (c.refresh gen make).held = some (make gen) := by
  rw [Prepared.refresh]
  split
  · rw [h.text_eq]
  · next hstale =>
    simp only [stale, Bool.or_eq_true, not_or, Bool.not_eq_true] at hstale
    obtain ⟨b, hb⟩ := Option.isSome_iff_exists.mp (by simpa using hstale.1)
    rw [show (c.render gen).held = c.held from rfl, hb, h.held b hstale.2 hb]

end Prepared

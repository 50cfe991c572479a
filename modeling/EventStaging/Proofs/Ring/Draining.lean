import EventStaging.Proofs.Ring.Growth

/-!
# Clearing and draining

There are two ways to get every item out of a ring: to clear it, and to take one item after the
other until there is none. `Ring.Wipes` and `Ring.Drains` are the two loops, without a bound on
their rounds. A ring that is empty and begins at its first slot is settled by its size and its bound
(`Ring.Sound.eq_blank`), so both loops lead to the same ring, and what comes later cannot tell them
apart. Main statement: `Ring.clear_eq_drained`.
-/

namespace EventStaging.Ring

variable {α : Type} {ring last other : Ring α} {items : List α} {limit most rounds : Nat}

/-! ## The two loops -/

/-- What clearing does: as long as something is queued, the slot of the oldest item is emptied and
the head moves on. The number counts the rounds. -/
inductive Wipes : Ring α → Nat → Ring α → Prop where
  | stop {ring : Ring α} : ring.length = 0 → Wipes ring 0 ring
  | next {ring last : Ring α} {rounds : Nat} :
      ring.length ≠ 0 → Wipes ring.advance rounds last → Wipes ring (rounds + 1) last

/-- What draining does: items are taken out until there is none to take. -/
inductive Drains : Ring α → List α → Ring α → Prop where
  | stop {ring last : Ring α} : ring.pop = (none, last) → Drains ring [] last
  | next {ring rest last : Ring α} {item : α} {items : List α} :
      ring.pop = (some item, rest) → Drains rest items last → Drains ring (item :: items) last

/-- Wiping takes as many rounds as there are items, and ends in one way only. -/
theorem wipes_iff : Wipes ring rounds last ↔ rounds = ring.length ∧ last = advanceBy rounds ring := by
  constructor
  · intro h
    induction h with
    | stop hzero => exact ⟨hzero.symm, rfl⟩
    | next hne _ ih =>
        obtain ⟨hrounds, hlast⟩ := ih
        rw [length_advance] at hrounds
        exact ⟨by omega, hlast⟩
  · rintro ⟨hrounds, rfl⟩
    induction rounds generalizing ring with
    | zero => exact .stop hrounds.symm
    | succ rounds ih =>
        refine .next (by omega) (ih ?_)
        rw [length_advance]
        omega

/-- Draining a ring can end in one way only. -/
theorem Drains.unique {others : List α} (h : Drains ring items last)
    (h' : Drains ring others other) : items = others ∧ last = other := by
  induction h generalizing others with
  | stop hpop =>
      cases h' with
      | stop hpop' =>
          cases hpop.symm.trans hpop'
          exact ⟨rfl, rfl⟩
      | next hpop' => cases hpop.symm.trans hpop'
  | next hpop _ ih =>
      cases h' with
      | stop hpop' => cases hpop.symm.trans hpop'
      | next hpop' hrest' =>
          cases hpop.symm.trans hpop'
          obtain ⟨hitems, hlast⟩ := ih hrest'
          exact ⟨congrArg (_ :: ·) hitems, hlast⟩

/-! ## What they leave -/

/-- An empty ring of that many slots that begins at its first slot. -/
def blank (size : Nat) (bound : Option Nat) : Ring α := ⟨Array.replicate size none, 0, 0, bound⟩

/-- An empty ring of which one knows the size and the bound is known altogether. -/
theorem Sound.eq_blank (h : ring.Sound limit most) (hzero : ring.length = 0) :
    ring = blank ring.slots.size ring.bound := by
  have hslots : ring.slots = Array.replicate ring.slots.size none := by
    refine Array.ext (by simp) fun j hj _ ↦ ?_
    have hfree := h.free j hj fun i hi ↦ by omega
    rw [Array.getElem?_eq_getElem hj, Option.some.injEq] at hfree
    rw [hfree, Array.getElem_replicate]
  have hhead := h.head_eq_zero hzero
  obtain ⟨slots, head, length, bound⟩ := ring
  simp only at hslots hhead hzero
  rw [blank, ← hslots, hhead, hzero]

/-- Clearing leaves an empty ring of the same size. -/
theorem Grown.clear_eq (h : ring.Grown limit most) :
    ring.clear.2 = blank ring.slots.size ring.bound := by
  have hsound : ring.clear.2.Sound limit _ := (h.apply .clear).sound
  obtain ⟨items, hholds⟩ := h.holds
  have hzero : ring.clear.2.length = 0 := hholds.clear.2.length_eq
  rw [hsound.eq_blank hzero, size_clear, bound_clear]

/-- Draining gives the items in their order and leaves an empty ring of the same size. -/
theorem Grown.drains (h : ring.Grown limit most) (hholds : ring.Holds items) :
    Drains ring items (blank ring.slots.size ring.bound) := by
  induction items generalizing ring most with
  | nil =>
      have hzero : ring.length = 0 := hholds.length_eq
      refine .stop ?_
      rw [pop, if_pos hzero, ← h.sound.eq_blank hzero]
  | cons item items ih =>
      obtain ⟨hitem, hrest⟩ := hholds.pop
      have hdrains := ih (h.apply .pop) hrest
      have hsize : (ring.apply .pop).2.slots.size = ring.slots.size := size_pop ring
      rw [hsize, bound_apply] at hdrains
      exact .next (Prod.ext hitem rfl) hdrains

/-- Clearing a ring that operations led to is a loop of as many rounds as items are queued, after
which the head is put to the first slot. Draining the ring ends as well: it gives these items in
their order and leaves the very ring that clearing leaves, with all slots empty. So whatever is done
to it later has the same answers and the same outcome, the storage that is asked for included. -/
theorem clear_eq_drained (limit : Nat) (ops : List (Op α)) :
    let ring := ((empty limit).run ops).2
    ring.clear = (ring.toList.length, blank ring.slots.size ring.bound) ∧
      (∃ last, (∀ rounds other, Wipes ring rounds other ↔ rounds = ring.clear.1 ∧ other = last) ∧
        ring.clear.2 = { last with head := 0 }) ∧
      (∀ items last, Drains ring items last ↔ items = ring.toList ∧ last = ring.clear.2) ∧
      ∃ last, Drains ring ring.toList last ∧ ∀ later, last.run later = ring.clear.2.run later := by
  intro ring
  have hgrown : ring.Grown limit (max 0 ((empty limit).peak ops)) := (Grown.empty limit).run ops
  obtain ⟨items, hholds⟩ := hgrown.holds
  have hclear := hgrown.clear_eq
  have hdrains : Drains ring ring.toList ring.clear.2 := by
    rw [hholds.toList_eq, hclear]
    exact hgrown.drains hholds
  refine ⟨Prod.ext ?_ hclear, ⟨advanceBy ring.length ring, fun rounds other ↦ ?_, rfl⟩,
    fun items last ↦ ⟨fun h ↦ h.unique hdrains, ?_⟩, _, hdrains, fun later ↦ rfl⟩
  · rw [hholds.toList_eq]
    exact hholds.clear.1
  · rw [wipes_iff]
    exact and_congr_right fun hrounds ↦ by rw [hrounds]
  · rintro ⟨rfl, rfl⟩
    exact hdrains

/-- The items of this ring go around its end. -/
example :
    let ops := [.push (fun _ ↦ true) 'a', .push (fun _ ↦ true) 'b', .push (fun _ ↦ true) 'c', .pop,
      .push (fun _ ↦ true) 'd']
    let ring := ((empty 3).run ops).2
    ring.slots = #[some 'd', some 'b', some 'c'] ∧ ring.clear = (3, blank 3 (some 3)) := by
  decide

end EventStaging.Ring

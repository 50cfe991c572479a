import EventStaging.Proofs.Act.Journal

/-!
# Actions that are alike

Two runs of a program may work on different hosts and be observed differently, and still agree in
what matters. A `Likeness` says which hosts and which journals count as alike. Two actions are alike
when from alike hosts they give alike values, make alike observations and leave alike hosts;
`Act.Alike.bind` carries this through actions in sequence.
-/

namespace EventStaging

/-- What counts as alike in two runs: which hosts, and which journals. Journals are compared part by
part. -/
structure Likeness (σ τ : Type) where
  hosts : σ → τ → Prop
  journals : Journal → Journal → Prop
  journals_nil : journals [] []
  journals_append : ∀ {first second first' second' : Journal}, journals first first' →
    journals second second' → journals (first ++ second) (first' ++ second')

variable {σ τ α β γ δ : Type}

/-- Two actions were alike in what they did. -/
structure Done.Alike (like : Likeness σ τ) (values : α → β → Prop) (one : Done σ α)
    (other : Done τ β) : Prop where
  value : values one.value other.value
  journal : like.journals one.journal other.journal
  host : like.hosts one.host other.host

/-- Two actions are alike if they do alike things on alike hosts. -/
def Act.Alike (like : Likeness σ τ) (values : α → β → Prop) (one : Act σ α) (other : Act τ β) :
    Prop :=
  ∀ host host', like.hosts host host' →
    Done.Alike like values (one.run host) (other.run host')

namespace Act.Alike

variable {like : Likeness σ τ} {values : α → β → Prop} {results : γ → δ → Prop}

/-- Values that go together are had alike. -/
theorem pure {x : α} {y : β} (h : values x y) :
    Alike like values (Pure.pure x : Act σ α) (Pure.pure y : Act τ β) := by
  intro host host' hhost
  exact ⟨h, like.journals_nil, hhost⟩

/-- Sequences are alike if their parts are. -/
theorem bind {one : Act σ α} {other : Act τ β} {next : α → Act σ γ} {next' : β → Act τ δ}
    (h : Alike like values one other)
    (hnext : ∀ x y, values x y → Alike like results (next x) (next' y)) :
    Alike like results (one >>= next) (other >>= next') := by
  intro host host' hhost
  have hfirst := h host host' hhost
  have hsecond := hnext _ _ hfirst.value _ _ hfirst.host
  exact ⟨hsecond.value, like.journals_append hfirst.journal hsecond.journal, hsecond.host⟩

/-- Actions that follow on the same value need to be alike for that value only. -/
theorem bind_eq {one : Act σ α} {other : Act τ α} {next : α → Act σ γ} {next' : α → Act τ δ}
    (h : Alike like Eq one other) (hnext : ∀ x, Alike like results (next x) (next' x)) :
    Alike like results (one >>= next) (other >>= next') := by
  refine h.bind fun x y hxy ↦ ?_
  subst hxy
  exact hnext x

/-- Changing values that go together leaves actions alike. -/
theorem map {one : Act σ α} {other : Act τ β} {f : α → γ} {g : β → δ}
    (h : Alike like values one other) (hmap : ∀ x y, values x y → results (f x) (g y)) :
    Alike like results (f <$> one) (g <$> other) := by
  intro host host' hhost
  have hdone := h host host' hhost
  exact ⟨hmap _ _ hdone.value, hdone.journal, hdone.host⟩

end Act.Alike

end EventStaging

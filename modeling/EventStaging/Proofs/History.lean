import EventStaging.Act

/-!
# Histories of systems

A system is given commands one after the other; to each it reacts with an answer, with what can be
observed, and with a new state. The history of a run is the list of its turns. `System.history_append`
says that histories of consecutive parts of a run follow each other, `System.history_filter` that
commands without effect can be left out, `System.split_of_history_eq` that every turn begins where a
shorter run ends, and `System.run_induction` how a property of histories is proved one turn at a
time.
-/

namespace EventStaging

/-- What a system makes of a command: what it answers, what was observed meanwhile, and the state in
which it is afterwards. -/
structure Reaction (S α J : Type) where
  answer : α
  journal : J
  state : S

/-- A system reacts to commands, each time from the state in which it is. -/
abbrev System (S κ α J : Type) : Type := S → κ → Reaction S α J

/-- One command in a run of a system, and what became of it: the state that the command finds, the
answer, what was observed meanwhile, and the state that the command leaves. -/
structure Turn (S κ α J : Type) where
  before : S
  command : κ
  answer : α
  journal : J
  after : S

/-- Something that works on a host, together with that host. -/
structure Hosted (ω σ : Type) where
  object : ω
  host : σ

namespace System

variable {S κ α J ω σ : Type}

/-- The system of a thing on which every command is an action on its host. -/
def ofAct (act : ω → κ → Act σ (α × ω)) : System (Hosted ω σ) κ α Journal := fun state command ↦
  let done := (act state.object command).run state.host
  { answer := done.value.1, journal := done.journal, state := ⟨done.value.2, done.host⟩ }

variable (system : System S κ α J)

/-- The turn that a command takes. -/
def turn (state : S) (command : κ) : Turn S κ α J :=
  let reaction := system state command
  { before := state, command, answer := reaction.answer, journal := reaction.journal,
    after := reaction.state }

/-- The turns that commands take one after the other. -/
def history (state : S) : List κ → List (Turn S κ α J)
  | [] => []
  | command :: commands =>
    system.turn state command :: history (system.turn state command).after commands

/-- The state that commands leave. -/
def final (state : S) : List κ → S
  | [] => state
  | command :: commands => final (system.turn state command).after commands

variable {system} {state : S}

/-- Without commands there are no turns. -/
@[simp] theorem history_nil : system.history state [] = [] := rfl

/-- The turns of commands in turn are those of the first and then of the others. -/
theorem history_append (first second : List κ) :
    system.history state (first ++ second) =
      system.history state first ++ system.history (system.final state first) second := by
  induction first generalizing state with
  | nil => rfl
  | cons command commands ih => exact congrArg (_ :: ·) ih

/-- Commands in turn end where the later ones end. -/
theorem final_append (first second : List κ) :
    system.final state (first ++ second) = system.final (system.final state first) second := by
  induction first generalizing state with
  | nil => rfl
  | cons command commands ih => exact ih

/-- Every turn of a run is that of one of its commands. -/
theorem command_mem_of_mem_history {commands : List κ} {turn : Turn S κ α J}
    (h : turn ∈ system.history state commands) : turn.command ∈ commands := by
  induction commands generalizing state with
  | nil => cases h
  | cons command commands ih =>
      rcases List.mem_cons.mp h with rfl | h
      · exact List.mem_cons_self
      · exact List.mem_cons_of_mem _ (ih h)

/-- Every turn of a run is what the system makes of its command in some state. -/
theorem eq_turn_of_mem_history {commands : List κ} {turn : Turn S κ α J}
    (h : turn ∈ system.history state commands) : turn = system.turn turn.before turn.command := by
  induction commands generalizing state with
  | nil => cases h
  | cons command commands ih =>
      rcases List.mem_cons.mp h with rfl | h
      · rfl
      · exact ih h

/-- Commands that leave the state as it is can be left out, and the other turns stay the same. -/
theorem history_filter {keep : κ → Bool}
    (hidle : ∀ state command, keep command = false → (system.turn state command).after = state)
    (commands : List κ) :
    system.history state (commands.filter keep) =
        (system.history state commands).filter (fun turn ↦ keep turn.command) ∧
      system.final state (commands.filter keep) = system.final state commands := by
  induction commands generalizing state with
  | nil => exact ⟨rfl, rfl⟩
  | cons command commands ih =>
      obtain ⟨hturns, hfinal⟩ := @ih (system.turn state command).after
      rw [history, final]
      by_cases hkeep : keep command
      · rw [List.filter_cons_of_pos hkeep, history, hturns, List.filter_cons_of_pos (by exact hkeep)]
        exact ⟨rfl, hfinal⟩
      · rw [List.filter_cons_of_neg hkeep, List.filter_cons_of_neg (by exact hkeep), ← hturns,
          ← hfinal, hidle state command (eq_false_of_ne_true hkeep)]
        exact ⟨rfl, rfl⟩

/-- Every turn of a run is what the system makes of its command in the state in which the turns
before it end. -/
theorem split_of_history_eq {commands : List κ} {earlier later : List (Turn S κ α J)}
    {turn : Turn S κ α J} (h : system.history state commands = earlier ++ turn :: later) :
    ∃ first command rest, commands = first ++ command :: rest ∧
      earlier = system.history state first ∧
      turn = system.turn (system.final state first) command := by
  induction earlier generalizing state commands with
  | nil =>
      cases commands with
      | nil => cases h
      | cons command rest =>
          obtain ⟨rfl, -⟩ := List.cons.inj h
          exact ⟨[], command, rest, rfl, rfl, rfl⟩
  | cons head earlier ih =>
      cases commands with
      | nil => cases h
      | cons command rest =>
          obtain ⟨rfl, hrest⟩ := List.cons.inj h
          obtain ⟨first, last, rest, rfl, rfl, rfl⟩ := ih hrest
          exact ⟨command :: first, last, rest, rfl, rfl, rfl⟩

/-- What holds of no turns and is kept by each further turn holds of every run. -/
theorem run_induction {motive : List (Turn S κ α J) → S → Prop} (nil : motive [] state)
    (snoc : ∀ turns state command, motive turns state →
      motive (turns ++ [system.turn state command]) (system.turn state command).after)
    (commands : List κ) :
    motive (system.history state commands) (system.final state commands) := by
  -- The turns that have been taken are collected in front of those that come.
  have hfrom : ∀ (commands : List κ) (turns : List (Turn S κ α J)) (state : S),
      motive turns state →
      motive (turns ++ system.history state commands) (system.final state commands) := by
    intro commands
    induction commands with
    | nil =>
        intro turns state h
        rwa [history_nil, List.append_nil]
    | cons command commands ih =>
        intro turns state h
        have hnext := ih _ _ (snoc turns state command h)
        rwa [List.append_assoc] at hnext
  exact hfrom commands [] state nil

end System

end EventStaging

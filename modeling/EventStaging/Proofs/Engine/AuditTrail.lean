import EventStaging.Proofs.Engine.Custody
import EventStaging.Proofs.Engine.Logging
import EventStaging.Proofs.Engine.LogLines
import Mathlib.Algebra.Ring.Nat

/-!
# The log as an audit trail

The log lines of an engine give an account of how many records wait, how many were dispatched, and
in which state the engine is. `Entry.Fits` says what one line makes of this account, and a `Trail`
is a list of lines that fit one after the other. The lines of every action of an engine lead from
its account before to that afterwards (`Engine.leads_apply`, `Engine.leads_run`). Main statement
(`Engine.audit_trail`): from a log that is captured from the beginning the account can be read off
at every line.
-/

namespace EventStaging

open Doubles (LogCapture)

variable {σ α β : Type}

/-! ## Trails -/

/-- What the log lines of an engine give an account of: how many records wait, how many were
dispatched, and the state of the engine. -/
structure Tally where
  size : Nat
  processed : Nat
  state : Lifecycle

/-- The account of an engine as it is. -/
def Engine.tally (engine : Engine σ) : Tally := ⟨engine.queueSize, engine.processed, engine.state⟩

/-- What a line makes of the account of an engine whose queue has the given bound. -/
inductive Entry.Fits (bound : Option Nat) : Tally → Entry → Tally → Prop where
  | queued (tally : Tally) (size : Nat) (more : size = tally.size + 1) :
    Fits bound tally (.queued size) { tally with size }
  | processing (tally : Tally) (size : Nat) (less : tally.size = size + 1) :
    Fits bound tally .processing { tally with size, processed := tally.processed + 1 }
  | cleared (tally : Tally) : Fits bound tally (.cleared tally.size) { tally with size := 0 }
  | moved (tally : Tally) (new : Lifecycle) :
    Fits bound tally (.moved tally.state new) { tally with state := new }
  | full (tally : Tally) (atBound : bound = some tally.size) :
    Fits bound tally (.full tally.size) tally
  | other (tally : Tally) : Fits bound tally .other tally

/-- Lines that fit one after the other. -/
inductive Trail (bound : Option Nat) : Tally → List Entry → Tally → Prop where
  | nil (tally : Tally) : Trail bound tally [] tally
  | cons {first middle last : Tally} {entry : Entry} {entries : List Entry}
    (head : entry.Fits bound first middle) (tail : Trail bound middle entries last) :
    Trail bound first (entry :: entries) last

namespace Entry

/-- How many events were queued. -/
def queuedIn (entries : List Entry) : Nat :=
  entries.countP fun
    | .queued _ => true
    | _ => false

/-- How many records were dispatched. -/
def processingIn (entries : List Entry) : Nat := entries.countP (· == .processing)

/-- How many records were dropped. -/
def clearedIn (entries : List Entry) : Nat :=
  (entries.map fun
    | .cleared count => count
    | _ => 0).sum

/-- The running balance: what was queued without what was dispatched or dropped. -/
def balance (entries : List Entry) : Int :=
  queuedIn entries - processingIn entries - clearedIn entries

/-- The states to which the engine moved. -/
def targets (entries : List Entry) : List Lifecycle :=
  entries.filterMap fun
    | .moved _ new => some new
    | _ => none

/-- The state to which the engine moved last, or the one in which it began. -/
def lastState (entries : List Entry) (start : Lifecycle) : Lifecycle :=
  (targets entries).getLast?.getD start

/-- The balance of a log is that of its first line and that of the others. -/
theorem balance_cons (entry : Entry) (entries : List Entry) :
    balance (entry :: entries) = balance [entry] + balance entries := by
  simp only [balance, queuedIn, processingIn, clearedIn, List.countP_cons, List.countP_nil,
    List.map_cons, List.map_nil, List.sum_cons, List.sum_nil]
  omega

/-- The last state of a log is told by its later lines, if they tell one. -/
theorem lastState_cons (entry : Entry) (entries : List Entry) (start : Lifecycle) :
    lastState (entry :: entries) start = lastState entries (lastState [entry] start) := by
  cases entry with
  | moved old new =>
      show (new :: targets entries).getLast?.getD start = (targets entries).getLast?.getD new
      rw [List.getLast?_cons]
      rfl
  | _ => rfl

end Entry

namespace Trail

open Entry

variable {bound : Option Nat} {first middle last : Tally} {entry : Entry}
  {earlier later entries : List Entry}

/-- A line that fits is a trail of its own. -/
theorem single (h : entry.Fits bound first last) : Trail bound first [entry] last :=
  .cons h (.nil last)

/-- A trail goes on where another one has led. -/
theorem append (hearlier : Trail bound first earlier middle)
    (hlater : Trail bound middle later last) : Trail bound first (earlier ++ later) last := by
  induction hearlier with
  | nil => exact hlater
  | cons hhead _ ih => exact .cons hhead (ih hlater)

/-- Every part of a trail is one, and they meet. -/
theorem split (h : Trail bound first (earlier ++ later) last) :
    ∃ middle, Trail bound first earlier middle ∧ Trail bound middle later last := by
  induction earlier generalizing first with
  | nil => exact ⟨first, .nil first, h⟩
  | cons entry earlier ih =>
      cases h with
      | cons hhead htail =>
          obtain ⟨middle, hearlier, hlater⟩ := ih htail
          exact ⟨middle, .cons hhead hearlier, hlater⟩

/-- Lines that say nothing of the account leave it as it is. -/
theorem others (h : ∀ entry ∈ entries, entry = .other) (tally : Tally) :
    Trail bound tally entries tally := by
  induction entries with
  | nil => exact .nil tally
  | cons entry entries ih =>
      obtain rfl := h entry List.mem_cons_self
      exact .cons (.other tally) (ih fun entry hmem ↦ h entry (List.mem_cons_of_mem _ hmem))

/-- A trail accounts for the size of the queue by its balance. -/
theorem size_eq (h : Trail bound first entries last) :
    (last.size : Int) = first.size + balance entries := by
  induction h with
  | nil => exact (Int.add_zero _).symm
  | @cons first middle last entry entries hhead htail ih =>
      have hentry : (middle.size : Int) = first.size + balance [entry] := by
        cases hhead with
        | queued size hmore =>
            show (size : Int) = first.size + 1
            omega
        | processing size hless =>
            show (size : Int) = first.size + -1
            omega
        | cleared =>
            show (0 : Int) = first.size + (0 - (first.size + 0 : Nat))
            omega
        | _ => exact (Int.add_zero _).symm
      rw [balance_cons, ih, hentry, Int.add_assoc]

/-- A trail accounts for the counter by its lines about dispatches. -/
theorem processed_eq (h : Trail bound first entries last) :
    last.processed = first.processed + processingIn entries := by
  induction h with
  | nil => rfl
  | @cons first middle last entry entries hhead htail ih =>
      have hentry : middle.processed = first.processed + processingIn [entry] := by
        cases hhead <;> rfl
      have hcons : processingIn (entry :: entries) =
          processingIn entries + processingIn [entry] := by
        simp only [processingIn, List.countP_cons, List.countP_nil, Nat.zero_add]
      omega

/-- A trail accounts for the state by its lines about changes of it. -/
theorem state_eq (h : Trail bound first entries last) :
    last.state = lastState entries first.state := by
  induction h with
  | nil => rfl
  | @cons first middle last entry entries hhead htail ih =>
      have hentry : middle.state = lastState [entry] first.state := by
        cases hhead <;> rfl
      rw [lastState_cons, ih, hentry]

/-- Every line of a trail fits the account that the lines before it give. -/
theorem fits (h : Trail bound first (earlier ++ entry :: later) last) :
    ∃ before after, Trail bound first earlier before ∧ entry.Fits bound before after ∧
      Trail bound first (earlier ++ [entry]) after := by
  obtain ⟨before, hearlier, hlater⟩ := h.split
  cases hlater with
  | cons hhead _ => exact ⟨before, _, hearlier, hhead, hearlier.append (single hhead)⟩

end Trail

/-! ## The lines of an action -/

/-- The lines of an action lead from one account to another, whatever the host. -/
def Act.Leads (bound : Option Nat) (before : Tally) (action : Act σ α) (after : α → Tally) : Prop :=
  ∀ host, Trail bound before ((action.run host).journal.lines.map Entry.read)
    (after (action.run host).value)

namespace Act.Leads

variable {bound : Option Nat} {before : Tally} {action : Act σ α} {next : α → Act σ β}
  {middle : α → Tally} {after : β → Tally}

/-- A value logs nothing and leaves the tally as it is. -/
theorem pure {value : β} (h : after value = before) :
    Leads bound before (Pure.pure value : Act σ β) after := by
  intro host
  rw [run_pure, h]
  exact .nil before

/-- An action goes on from the tally to which the one before it has led. -/
theorem bind (h : Leads bound before action middle)
    (hnext : ∀ host, Leads bound (middle (action.run host).value) (next (action.run host).value)
      after) : Leads bound before (action >>= next) after := by
  intro host
  rw [journal_bind, Journal.lines_append, List.map_append]
  exact (h host).append (hnext host _)

/-- Changing the value of an action changes nothing that it logs. -/
theorem map {f : α → β} (h : Leads bound before action (after ∘ f)) :
    Leads bound before (f <$> action) after := fun host ↦ h host

/-- A call that is noted as anything but a log line leaves the account as it is. -/
theorem call {f : σ → α × σ} {note : α → Observation}
    (h : ∀ answer, Journal.lines [note answer] = []) :
    Leads bound before (Act.call f note) fun _ ↦ before := by
  intro host
  rw [run_call, h]
  exact .nil before

end Act.Leads

namespace Engine

open Act (Leads)

variable {engine : Engine σ} {bound : Option Nat} {tally : Tally} {record : Record}

/-- A line leads to the tally that it fits. -/
theorem leads_log (h : engine.Heard) {level : Level} {message : String} {after : Tally}
    (hfits : (Entry.read (level, message)).Fits bound tally after) :
    Leads bound tally (engine.log level message) fun _ ↦ after := by
  intro host
  rw [lines_log, offeredLines_of_heard h]
  exact .single hfits

/-- Trace events do not count. -/
theorem leads_trace (event : Trace.Event) :
    Leads bound tally (Act.trace event : Act σ Unit) fun _ ↦ tally := fun _ ↦ .nil tally

/-- A line that says nothing of the account leaves it as it is. -/
theorem leads_log_other (h : engine.Heard) {level : Level} {message : String}
    (hother : Entry.read (level, message) = .other) :
    Leads bound tally (engine.log level message) fun _ ↦ tally :=
  leads_log h (hother ▸ .other tally)

/-- A failure that is reported leaves the account as it is. -/
theorem leads_contain (h : engine.Heard) (role : Role) (kind : Option Kind) (fallback : α)
    (outcome : Outcome α) :
    Leads bound tally (engine.contain role kind fallback outcome) fun _ ↦ tally := by
  intro host
  rw [lines_contain]
  split
  · exact .nil tally
  · rw [offeredLines_of_heard h]
    exact .single (.other tally)

/-- Neither a delivery nor a failure of the handler changes the tally. -/
theorem leads_deliver (h : engine.Heard) (record : Record) :
    Leads bound tally (engine.deliver record) fun _ ↦ tally := by
  rw [deliver_eq]
  cases engine.callbacks.handler with
  | none => exact .pure rfl
  | some handler => exact (Leads.call fun _ ↦ rfl).bind fun _ ↦ leads_contain h _ _ _ _

/-- Neither the question to the filter nor its failure changes the tally. -/
theorem leads_admits (h : engine.Heard) (record : Record) :
    Leads bound tally (engine.admits record) fun _ ↦ tally := by
  rw [admits_eq]
  cases engine.callbacks.filter with
  | none => exact .pure rfl
  | some filter => exact (Leads.call fun _ ↦ rfl).bind fun _ ↦ leads_contain h _ _ _ _

/-- Neither the call of the observer nor its failure changes the tally. -/
theorem leads_announce (h : engine.Heard) (old new : Lifecycle) :
    Leads bound tally (engine.announce old new) fun _ ↦ tally := by
  rw [announce_eq]
  cases engine.callbacks.observer with
  | none => exact .pure rfl
  | some observer =>
      have hnotify : Leads bound tally (Act.notify observer old new) fun _ ↦ tally :=
        (Leads.call fun _ ↦ rfl).bind fun _ ↦ .pure rfl
      exact hnotify.bind fun _ ↦ leads_contain h _ _ _ _

/-! ## Taking events in -/

/-- An event that is refused for want of storage leaves the tally as it was. -/
theorem leads_refuseStorage (h : engine.Heard) (bytes : Nat) :
    Leads bound engine.tally (engine.refuseStorage bytes) fun done ↦ done.2.tally :=
  (leads_log_other h rfl).bind fun _ ↦ .pure rfl

/-- Queueing leads to the tally of the engine afterwards. -/
theorem leads_enqueue (h : engine.Heard) (hholds : engine.queue.Holds engine.queue.toList)
    (allocator : Allocator) (record : Record) :
    Leads engine.capacity engine.tally (engine.enqueue allocator record) fun done ↦
      done.2.tally := by
  unfold enqueue
  simp only
  split
  case h_1 hok =>
    refine (leads_log h ?_).bind fun _ ↦ .pure rfl
    rw [Entry.read_queued]
    exact .queued engine.tally _ (Ring.length_of_push hok)
  case h_2 item hfull =>
    rw [Ring.push_of_refused hfull]
    refine (leads_log h ?_).bind fun _ ↦ .pure rfl
    rw [Entry.read_full_dropping]
    exact .full engine.tally (hholds.bound_of_push_full hfull)
  case h_3 item bytes hstorage =>
    rw [Ring.push_of_refused hstorage]
    exact leads_refuseStorage h bytes

/-- A push leads to the tally of the engine afterwards, whatever becomes of the event. -/
theorem leads_push (h : engine.Heard) (hholds : engine.queue.Holds engine.queue.toList)
    (allocator : Allocator) (kind : Kind) (source : String) (payload : List UInt8) :
    Leads engine.capacity engine.tally (engine.push allocator kind source payload) fun done ↦
      done.2.tally := by
  by_cases hfull : engine.queue.isFull
  · rw [push_of_full hfull]
    refine (leads_log h ?_).bind fun _ ↦ .pure rfl
    rw [Entry.read_full]
    refine .full engine.tally ?_
    show engine.queue.bound = some engine.queue.length
    rw [hholds.length_eq]
    exact hholds.isFull_iff.mp hfull
  cases hcopy : Record.copy allocator kind source payload with
  | error bytes =>
      rw [push_of_uncopied hfull hcopy]
      exact leads_refuseStorage h bytes
  | ok record =>
      rw [push_of_copied hfull hcopy]
      refine (leads_admits h record).bind fun host ↦ ?_
      split
      · exact leads_enqueue h hholds allocator record
      · exact (leads_log_other h Entry.read_filtered).bind fun _ ↦ .pure rfl

/-! ## Dispatch -/

/-- The line about a record stands where the record has left the queue and is not yet counted. -/
theorem leads_dispatch (h : engine.Heard) (record : Record) :
    Leads bound ⟨engine.queueSize + 1, engine.processed, engine.state⟩ (engine.dispatch record)
      Engine.tally := by
  have hline : Leads bound ⟨engine.queueSize + 1, engine.processed, engine.state⟩
      (engine.log .debug s!"Processing event (type={record.kind.name})")
      fun _ ↦ ⟨engine.queueSize, engine.processed + 1, engine.state⟩ := by
    refine leads_log h ?_
    rw [Entry.read_processing]
    exact .processing _ engine.queueSize rfl
  exact hline.bind fun _ ↦ (leads_deliver h record).bind fun _ ↦ .pure rfl

/-- Draining leads to the tally of the engine afterwards. -/
theorem leads_drain (limit : Nat) (h : engine.Heard)
    (hholds : engine.queue.Holds engine.queue.toList) :
    Leads bound engine.tally (engine.drain limit) fun done ↦ done.2.tally := by
  induction limit generalizing engine with
  | zero => exact .pure rfl
  | succ limit ih =>
      -- Each record that is popped makes the tally smaller by one before its line is written.
      rcases hpop : engine.queue.pop with ⟨_ | record, queue⟩
      case none =>
          have hlength : queue.length = engine.queue.length := hholds.length_of_pop_none hpop
          rw [drain_of_empty hpop]
          refine .pure ?_
          show (⟨queue.length, engine.processed, engine.state⟩ : Tally) = engine.tally
          rw [hlength]
          rfl
      case some =>
          have hlength : engine.queue.length = queue.length + 1 := Ring.length_of_pop_some hpop
          have hrest : queue.Holds queue.toList := by
            have htail := hholds.pop.2
            rw [hpop] at htail
            rw [htail.toList_eq]
            exact htail
          have htally : engine.tally = ⟨queue.length + 1, engine.processed, engine.state⟩ := by
            rw [← hlength]
            rfl
          have hheard : Heard { engine with queue } := h
          rw [drain_of_pop hpop, htally]
          refine (leads_dispatch hheard record).bind fun host ↦ ?_
          refine Leads.map (ih ?_ ?_)
          · exact h
          · exact hrest

/-- The warning of an engine that is not running leaves the tally as it was. -/
theorem leads_warnNotRunning (h : engine.Heard) :
    Leads bound tally engine.warnNotRunning fun _ ↦ tally :=
  leads_log_other h Entry.read_notRunning

/-- A single dispatch leads to the tally of the engine afterwards. -/
theorem leads_process (h : engine.Heard) (hholds : engine.queue.Holds engine.queue.toList) :
    Leads bound engine.tally engine.process fun done ↦ done.2.tally := by
  by_cases hrunning : engine.state.isRunning
  · rw [process_of_running hrunning]
    exact (leads_drain 1 h hholds).bind fun _ ↦ .pure rfl
  · rw [process_of_not_running hrunning]
    exact (leads_warnNotRunning h).bind fun _ ↦ .pure rfl

/-- Dispatching everything leads to the tally of the engine afterwards. -/
theorem leads_processAll (h : engine.Heard) (hholds : engine.queue.Holds engine.queue.toList) :
    Leads bound engine.tally engine.processAll fun done ↦ done.2.tally := by
  by_cases hrunning : engine.state.isRunning
  · rw [processAll_of_running hrunning]
    refine (leads_drain engine.queueSize h hholds).bind fun host ↦ ?_
    -- Draining changes neither the flag nor the sink.
    rw [(engine.drain_run engine.queueSize host).1]
    simp only
    split
    · exact (leads_log_other h (Entry.read_processed _)).bind fun _ ↦ .pure rfl
    · exact .pure rfl
  · rw [processAll_of_not_running hrunning]
    exact (leads_warnNotRunning h).bind fun _ ↦ .pure rfl

/-! ## Clearing and changes of state -/

/-- Clearing leads to the tally of the engine afterwards. -/
theorem leads_clear (h : engine.Heard) (hholds : engine.queue.Holds engine.queue.toList) :
    Leads bound engine.tally engine.clear fun done ↦ done.2.tally := by
  have hlength : engine.queue.clear.2.length = 0 := hholds.clear.2.length_eq
  have hcount : engine.queue.clear.1 = engine.queueSize := rfl
  unfold clear
  simp only [hcount]
  split
  case isTrue hpos =>
    refine (leads_log h ?_).bind fun _ ↦ .pure rfl
    rw [Entry.read_cleared]
    show Entry.Fits bound engine.tally _ ⟨engine.queue.clear.2.length, _, _⟩
    rw [hlength]
    exact .cleared engine.tally
  case isFalse hzero =>
    refine .pure ?_
    show (⟨engine.queue.clear.2.length, engine.processed, engine.state⟩ : Tally) =
      ⟨engine.queueSize, engine.processed, engine.state⟩
    rw [hlength]
    congr 1
    omega

/-- A change of state leads to the tally of the engine afterwards. -/
theorem leads_moveTo (h : engine.Heard) (new : Lifecycle) :
    Leads bound engine.tally (engine.moveTo new) Engine.tally := by
  unfold moveTo
  split
  · exact .pure rfl
  · have hline : Leads bound engine.tally
        (engine.log .info s!"State change: {engine.state.name} -> {new.name}")
        fun _ ↦ { engine.tally with state := new } := by
      refine leads_log h ?_
      rw [Entry.read_moved]
      exact .moved engine.tally new
    exact hline.bind fun _ ↦ (leads_announce h _ _).bind fun _ ↦ .pure rfl

/-! ## Every operation and every run -/

/-- The lines of an operation lead from the account of the engine to that of the engine after it. -/
theorem leads_apply (h : engine.Heard) (hholds : engine.queue.Holds engine.queue.toList) (op : Op) :
    Leads engine.capacity engine.tally (engine.apply op) fun done ↦ done.2.tally := by
  cases op with
  | push allocator kind source payload =>
      rw [apply_push]
      exact (leads_push h hholds allocator kind source payload).map
  | process =>
      rw [apply_process]
      exact (leads_process h hholds).map
  | processAll =>
      rw [apply_processAll]
      exact (leads_processAll h hholds).map
  | clear =>
      rw [apply_clear]
      exact (leads_clear h hholds).map
  | start =>
      rw [apply_start]
      exact (leads_moveTo h .running).map
  | stop =>
      rw [apply_stop]
      exact (leads_moveTo h .stopped).map

/-- The lines of a run lead from the account at the beginning to that at the end. -/
theorem leads_run (h : engine.Heard) (hholds : engine.queue.Holds engine.queue.toList)
    (ops : List Op) :
    Leads engine.capacity engine.tally (engine.run ops) fun done ↦ done.2.tally := by
  induction ops generalizing engine with
  | nil => exact .pure rfl
  | cons op ops ih =>
      refine (leads_apply h hholds op).bind fun host ↦ ?_
      have hnext := ih (heard_apply h op host) (Accounts.step hholds op host).holds
      rw [engine.capacity_apply op host] at hnext
      exact hnext.map

/-! ## The captured log -/

variable {config : Config σ} {cell : Cell σ LogCapture} {host : σ}

/-- The log that is captured while an engine is made and used is a trail from the account of a new
engine to that of the engine as it is. -/
theorem trail_captured (hlogging : config.enableLogging = true)
    (hcaptures : config.callbacks.Captures cell) (hempty : (cell.get host).lines = [])
    (hmade : ((create config).run host).value = .ok engine) (ops : List Op) :
    let done := (engine.run ops).run ((create config).run host).host
    Trail engine.capacity ⟨0, 0, .idle⟩ ((cell.get done.host).lines.map Entry.read)
      done.value.2.tally := by
  intro done
  obtain ⟨rfl, hcreate⟩ := create_of_ok hmade
  have hheard : (ofConfig config).Heard := by
    refine ⟨hlogging, ?_⟩
    rw [show (ofConfig config).callbacks.sink = _ from hcaptures.sink]
    rfl
  have hbears : (ofConfig config).Bears (.captures cell) := bears_captures hcaptures
  have hcaptured : (Act.Trait.captures cell).Has (create config) := by
    rw [hcreate]
    refine Act.Trait.seq _ (hbears.trace _) fun _ ↦ Act.Trait.seq _ ?_ fun _ ↦ Act.Trait.pure _ _
    exact captures_log hcaptures _ _
  -- The line about the making leaves the tally where it begins.
  have hannounced : Act.Leads (ofConfig config).capacity ⟨0, 0, .idle⟩ (create config)
      fun _ ↦ ⟨0, 0, .idle⟩ := by
    rw [hcreate]
    refine (leads_trace _).bind fun _ ↦ ?_
    exact (leads_log_other hheard (Entry.read_created _)).bind fun _ ↦ .pure rfl
  have hfresh : (ofConfig config).queue.Holds [] := Ring.Holds.empty config.maxQueueSize
  have hrun := leads_run hheard (hfresh.toList_eq.symm ▸ hfresh) ops
    ((create config).run host).host
  have hlines : (cell.get done.host).lines =
      ((create config).run host).journal.lines ++ done.journal.lines := by
    have hfirst : (cell.get ((create config).run host).host).lines =
        (cell.get host).lines ++ ((create config).run host).journal.lines := hcaptured host
    rw [hempty, List.nil_append] at hfirst
    rw [← hfirst]
    exact captures_run hcaptures ops _
  rw [hlines, List.map_append]
  exact (hannounced host).append hrun

/-- The captured log of an engine is an exact audit trail. The engine logs, and its sink captures
the lines in a place of the host that nothing else changes. Then, after whatever operations, as many
events were queued as were dispatched, were dropped or are queued still; as many lines tell of a
dispatch as the engine has counted; and the last change of state leads to the state of the engine,
which began idle. Line by line, the number in a line about a queued event is the balance right after
it, the number in a line about a full queue is the balance at that place and the configured maximum,
and a change of state begins where the one before it led to. -/
theorem audit_trail (config : Config σ) (cell : Cell σ LogCapture) (host : σ) (engine : Engine σ)
    (hlogging : config.enableLogging = true) (hcaptures : config.callbacks.Captures cell)
    (hempty : (cell.get host).lines = [])
    (hmade : ((create config).run host).value = .ok engine) (ops : List Op) :
    let done := (engine.run ops).run ((create config).run host).host
    let last := done.value.2
    let entries := (cell.get done.host).lines.map Entry.read
    ((Entry.queuedIn entries : Int) - Entry.processingIn entries - Entry.clearedIn entries =
        last.queueSize ∧
      Entry.processingIn entries = last.processed ∧
      Entry.lastState entries .idle = last.state) ∧
      ∀ earlier entry later, entries = earlier ++ entry :: later →
        (∀ size : Nat, entry = .queued size → Entry.balance (earlier ++ [entry]) = size) ∧
        (∀ items : Nat, entry = .full items →
          Entry.balance earlier = items ∧ config.maxQueueSize = items) ∧
        ∀ old new, entry = .moved old new → old = Entry.lastState earlier .idle := by
  intro done last entries
  have htrail : Trail engine.capacity ⟨0, 0, .idle⟩ entries last.tally :=
    trail_captured hlogging hcaptures hempty hmade ops
  refine ⟨⟨?_, ?_, htrail.state_eq.symm⟩, ?_⟩
  · exact (Int.zero_add _).symm.trans htrail.size_eq.symm
  · exact (Nat.zero_add _).symm.trans htrail.processed_eq.symm
  · intro earlier entry later hentries
    rw [hentries] at htrail
    -- The line fits the tally that the lines before it lead to, and the kind of line says how.
    obtain ⟨before, after, hearlier, hfits, hnext⟩ := htrail.fits
    have hbalance : (before.size : Int) = Entry.balance earlier :=
      hearlier.size_eq.trans (Int.zero_add _)
    have hbalance' : (after.size : Int) = Entry.balance (earlier ++ [entry]) :=
      hnext.size_eq.trans (Int.zero_add _)
    refine ⟨?_, ?_, ?_⟩
    · rintro size rfl
      cases hfits with
      | queued _ hmore => exact hbalance'.symm
    · rintro items rfl
      cases hfits with
      | full hbound =>
          refine ⟨hbalance.symm, ?_⟩
          obtain ⟨rfl, -⟩ := create_of_ok hmade
          have hcapacity : (if config.maxQueueSize = 0 then none else some config.maxQueueSize) =
              some before.size := hbound
          split at hcapacity
          · cases hcapacity
          · exact Option.some.inj hcapacity
    · rintro old new rfl
      cases hfits with
      | moved => exact hearlier.state_eq

/-- The log of an engine with room for one record: the second event finds the queue full, the first
is dispatched, and the third is dropped. -/
theorem audit_trail_of_full_queue :
    let config : Config LogCapture :=
      { name := "audited", maxQueueSize := 1, enableLogging := true,
        callbacks := { sink := some (LogCapture.sink .whole) } }
    let push : Op := .push .unlimited .data "a" []
    let done := ((ofConfig config).run [push, push, .start, .process, push, .clear, .stop]).run
      ((create config).run {}).host
    let entries := (Cell.whole.get done.host).lines.map Entry.read
    (config.enableLogging = true ∧ config.callbacks.Captures .whole ∧
        ((create config).run {}).value = .ok (ofConfig config)) ∧
      entries = [.other, .queued 1, .full 1, .moved .idle .running, .processing, .queued 1,
        .cleared 1, .moved .running .stopped] ∧
      done.value.2.queueSize = 0 ∧ done.value.2.processed = 1 ∧ done.value.2.state = .stopped := by
  intro config push done entries
  have hcaptures : config.callbacks.Captures .whole := by
    constructor
    case sink => rfl
    case handler =>
      intro handler hhandler
      cases hhandler
    case filter =>
      intro filter hfilter
      cases hfilter
    case observer =>
      intro observer hobserver
      cases hobserver
  have hmade : ((create config).run {}).value = .ok (ofConfig config) := by
    have hvalidate : config.validate = .ok () := by decide +kernel
    rw [create, hvalidate]
    rfl
  have hentries : entries = [.other, .queued 1, .full 1, .moved .idle .running, .processing,
      .queued 1, .cleared 1, .moved .running .stopped] := by
    decide +kernel
  -- The run is spelled out, so that it is matched and not carried out.
  subst entries done
  obtain ⟨⟨hsize, hprocessed, hstate⟩, -⟩ :=
    audit_trail config .whole {} (ofConfig config) rfl hcaptures rfl hmade
      [push, push, .start, .process, push, .clear, .stop]
  rw [hentries] at hsize hprocessed hstate
  refine ⟨⟨rfl, hcaptures, hmade⟩, hentries, ?_, ?_, ?_⟩
  · exact Int.ofNat_inj.mp (hsize.symm.trans (by decide))
  · exact hprocessed.symm.trans (by decide)
  · exact hstate.symm.trans (by decide)

end Engine

end EventStaging

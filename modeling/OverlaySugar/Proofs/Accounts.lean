import OverlaySugar.Proofs.Run

/-!
# Counts and messages

Errors and warnings are counted in the state, and each of them is a message
too. After any run, stopped or not, the counts are those of the messages.
-/

set_option autoImplicit false

namespace OverlaySugar
open Text

namespace Tally

def reported (t : Tally) : Severity → Nat
  | .warning => t.warnings
  | .error => t.errors

theorem reported_error (t : Tally) (text : String) (line : Int) (v : Severity) :
    (t.error text line).1.reported v =
      t.reported v + [(t.error text line).2].countP (·.severity == v) := by
  cases v <;> rfl

theorem reported_warning (t : Tally) (text : String) (line : Int) (v : Severity) :
    (t.warning text line).1.reported v =
      t.reported v + [(t.warning text line).2].countP (·.severity == v) := by
  cases v <;> rfl

/-- A root property counts as a warning just when it is warned about. -/
theorem reported_rootProperty (t : Tally) (verbose : Int) (property : String) (line : Int)
    (v : Severity) : (t.rootProperty verbose property line).1.reported v =
      t.reported v +
        (t.rootProperty verbose property line).2.toList.countP (·.severity == v) := by
  simp only [rootProperty]
  by_cases hw : verbose ≠ 0 ∨ t.rootProperties + 1 = 1
  · rw [if_pos hw]
    exact reported_warning { t with rootProperties := t.rootProperties + 1 } _ line v
  · rw [if_neg hw]
    cases v <;> rfl

end Tally

def Outcome.reports (r : Outcome) (v : Severity) : Nat := r.messages.countP (·.severity == v)

theorem Outcome.reports_after (es : List Event) (r : Outcome) (v : Severity) :
    (r.after es).reports v =
      (es.filterMap Event.message?).countP (·.severity == v) + r.reports v := by
  rw [reports, messages_after, List.countP_append, reports]

def Accounts (s : State) (r : Outcome) : Prop :=
  ∀ v, r.state.tally.reported v = s.tally.reported v + r.reports v

section
variable {o : Options} {s : State} {l : Line} {label name : Text} {r : Outcome}

theorem accounts_reporting {ms : List Message} (hm : r.messages = ms)
    (ht : ∀ v, r.state.tally.reported v =
      s.tally.reported v + ms.countP (·.severity == v)) : Accounts s r := by
  intro v
  rw [ht, Outcome.reports, hm]

theorem accounts_silent (hm : r.messages = []) (ht : r.state.tally = s.tally) : Accounts s r := by
  intro v
  rw [ht, Outcome.reports, hm]
  rfl

theorem messages_deeper (s s' : State) (es : List Event) :
    (Outcome.writing s' (s.deeperEnd ++ es)).messages = es.filterMap Event.message? := by
  rw [Outcome.messages, Outcome.events_writing, List.filterMap_append, filterMap_deeperEnd rfl,
    List.nil_append]

theorem messages_property (s s' : State) (m : Option Message) (origin : Origin) (t : Text) :
    (Outcome.writing s' (s.blockStart ++ (m.map Event.message).toList ++
      [.line origin t])).messages = m.toList := by
  rw [Outcome.messages, Outcome.events_writing, List.filterMap_append, List.filterMap_append,
    State.blockStart]
  split <;> cases m <;> rfl

theorem messages_stop (s : State) (status : ExitStatus) (f : Finding) (line : Int) :
    ((s.deeper.stop status f line).after s.deeperEnd).messages =
      [(s.tally.error f.text line).2] := by
  rw [Outcome.messages_after, filterMap_deeperEnd rfl]
  rfl

theorem accounts_opening (h : State.Opening o s l label name r) : Accounts s r := by
  cases h with
  | inDropped hd => exact accounts_silent rfl rfl
  | fragment hd h1 hn => exact accounts_silent (filterMap_deeperEnd rfl s) rfl
  | heading hd hn hp => exact accounts_silent (messages_deeper s _ _) rfl
  | notice hd hn hp hf =>
    exact accounts_reporting (messages_deeper s _ _) (Tally.reported_error _ _ _)
  | stopOverlay hd hn hp hf =>
    exact accounts_reporting (messages_stop s _ _ _) (Tally.reported_error _ _ _)
  | dropNode hd hr hn hf =>
    exact accounts_reporting (messages_deeper s _ _) (Tally.reported_error _ _ _)
  | stopReserved hd hr hn hf =>
    exact accounts_reporting (messages_stop s _ _ _) (Tally.reported_error _ _ _)
  | root hd h0 hn => exact accounts_silent rfl rfl
  | top hd hr h0 hn => exact accounts_silent rfl rfl
  | inner hd hr h0 hn => exact accounts_silent (messages_deeper s _ _) rfl

theorem accounts_closing (h : State.Closing o s l r) : Accounts s r := by
  cases h with
  | dropped hd ht => exact accounts_silent rfl rfl
  | inDropped hd ht => exact accounts_silent rfl rfl
  | fragment hd hs => exact accounts_silent (filterMap_unusedTarget (fun _ => rfl) s) rfl
  | root hd hs h1 hr => exact accounts_silent (filterMap_blockEnd rfl s) rfl
  | stray hd hs h0 => exact accounts_silent rfl rfl
  | inner hd hs h0 hr => exact accounts_silent rfl rfl

theorem accounts_staying (h : State.Staying o s l r) : Accounts s r := by
  cases h with
  | inDropped hd => exact accounts_silent rfl rfl
  | reference hd hc => exact accounts_silent rfl rfl
  | path hd hc => exact accounts_reporting rfl (Tally.reported_warning _ _ _)
  | rootProperty hd hc hp =>
    exact accounts_reporting (messages_property s _ _ _ _) (Tally.reported_rootProperty _ _ _ _)
  | plain hd hc hp => exact accounts_silent rfl rfl

end

theorem accounts_feed (o : Options) (s : State) (line : Text) : Accounts s (s.feed o line) := by
  obtain ⟨r, hr, hrule⟩ := s.feed_cases o line
  have h : Accounts (s.count line) r := by
    rcases hrule with ⟨n, -, hrule⟩ | ⟨-, hrule⟩ | ⟨-, hrule⟩
    · exact accounts_opening hrule
    · exact accounts_closing hrule
    · exact accounts_staying hrule
  intro v
  rw [hr, Outcome.state_after, Outcome.reports_after, List.filterMap_cons_none rfl,
    List.filterMap_nil, List.countP_nil, Nat.zero_add]
  exact h v

theorem accounts_feedAll (o : Options) (s : State) (lines : List Text) :
    Accounts s (State.feedAll o s lines) := by
  induction lines generalizing s with
  | nil => exact accounts_silent rfl rfl
  | cons line rest ih =>
    have hline := accounts_feed o s line
    cases hf : (s.feed o line).fatal with
    | some f =>
      rw [State.feedAll_cons_of_fatal hf]
      exact hline
    | none =>
      rw [State.feedAll_cons_of_not_fatal hf]
      intro v
      rw [Outcome.state_after, Outcome.reports_after, ih _ v, hline v, Nat.add_assoc]
      rfl

/-- The counts of a run are those of its messages. -/
theorem reported_run (o : Options) (lines : List Text) (v : Severity) :
    (run o lines).state.tally.reported v = (run o lines).reports v := by
  have h := accounts_feedAll o .initial lines v
  rw [show State.initial.tally.reported v = 0 by cases v <;> rfl, Nat.zero_add] at h
  exact h

end OverlaySugar

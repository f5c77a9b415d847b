/-
  WorkforceRisk.Scans.Moves — what an effect of a scan call does.

  `Move` is all an effect can do: where it takes its call, and the table and the log it
  leaves. Only a claim and the end of a pipeline change the state of a run that is there
  (`Move.shift`), and the run's key stays its own (`Move.named`).
-/

import WorkforceRisk.Scans.Service

namespace WorkforceRisk.Scans

open Lib Persistence ScanService

abbrev State := Config Effect Effect.Reply World

def World.answered (w : World) (i : Nat) (effect : Effect) (reply : effect.Reply) (scans : Table ScanRun) : World :=
  ⟨scans, ⟨i, effect, reply⟩ :: w.log⟩

theorem perform_answered {w w' : World} {i : Nat} {ch : Choice} {effect : Effect} {reply : effect.Reply}
    (h : w.perform i ch effect = (reply, w')) :
    ∃ scans, answer ch w.scans effect = (reply, scans) ∧ w' = w.answered i effect reply scans := by
  cases h
  exact ⟨_, rfl, rfl⟩

section
variable [Sha256]

/-- What an effect of call `i` can do. -/
inductive Move (i : Nat) (w : World) : Effect → Pc → Pc → World → Prop where
  | found {environment scope window : String} {r : ScanRun} :
      w.scans.find? (hasKey environment (scanWindowKey environment scope window)) = some r →
      Move i w (.find environment (scanWindowKey environment scope window)) (.requested environment scope window)
        (.ticketed environment scope window ⟨r.id, r.state, true⟩)
        (w.answered i (.find environment (scanWindowKey environment scope window)) (some r) w.scans)
  | missing {environment scope window : String} :
      w.scans.find? (hasKey environment (scanWindowKey environment scope window)) = none →
      Move i w (.find environment (scanWindowKey environment scope window)) (.requested environment scope window)
        (.absent environment scope window)
        (w.answered i (.find environment (scanWindowKey environment scope window)) none w.scans)
  | inserted {environment scope window correlationId : String} {id : Uuid} {now : DateTime} {scans : Table ScanRun} :
      w.scans.insert (newScanRun id now environment scope (scanWindowKey environment scope window) correlationId) =
        some scans →
      Move i w (.insert environment scope (scanWindowKey environment scope window) correlationId)
        (.absent environment scope window) (.ticketed environment scope window ⟨id, .queued, false⟩)
        (w.answered i (.insert environment scope (scanWindowKey environment scope window) correlationId) (.ok id) scans)
  | lost {environment scope window correlationId : String} (e : Error) :
      Move i w (.insert environment scope (scanWindowKey environment scope window) correlationId)
        (.absent environment scope window) .done
        (w.answered i (.insert environment scope (scanWindowKey environment scope window) correlationId) (.error e)
          w.scans)
  | issued {environment scope window : String} {ticket : ScanTicket} :
      Move i w (.issue environment scope window ticket) (.ticketed environment scope window ticket) (.holding ticket)
        (w.answered i (.issue environment scope window ticket) () w.scans)
  | claimed {ticket : ScanTicket} {reason : Option String} (now : DateTime) :
      stateOf w.scans ticket.scanRunId = some .queued →
      Move i w (.transition ticket.scanRunId .queued .running reason) (.holding ticket) (.claimed ticket)
        (w.answered i (.transition ticket.scanRunId .queued .running reason) true
          (moveRun w.scans now ticket.scanRunId .queued .running reason))
  | passed {ticket : ScanTicket} {reason : Option String} (now : DateTime) :
      stateOf w.scans ticket.scanRunId ≠ some .queued →
      Move i w (.transition ticket.scanRunId .queued .running reason) (.holding ticket)
        (.returning ticket .skippedDuplicate)
        (w.answered i (.transition ticket.scanRunId .queued .running reason) false
          (moveRun w.scans now ticket.scanRunId .queued .running reason))
  | ended {ticket : ScanTicket} {scope correlationId : String} (outcome : Except String PipelineResult) :
      Move i w (.run ticket scope correlationId) (.claimed ticket) (.ended ticket (targetOf outcome).1)
        (w.answered i (.run ticket scope correlationId) outcome w.scans)
  | stored {ticket : ScanTicket} {target : ScanState} {reason : Option String} (now : DateTime) (moved : Bool) :
      Move i w (.transition ticket.scanRunId .running target reason) (.ended ticket target) (.returning ticket target)
        (w.answered i (.transition ticket.scanRunId .running target reason) moved
          (moveRun w.scans now ticket.scanRunId .running target reason))
  | repeated {ticket : ScanTicket} : ticket.duplicate = true →
      Move i w (.finish ticket ticket.state) (.holding ticket) .done
        (w.answered i (.finish ticket ticket.state) () w.scans)
  | finished {ticket : ScanTicket} {state : ScanState} :
      Move i w (.finish ticket state) (.returning ticket state) .done
        (w.answered i (.finish ticket state) () w.scans)
  | read {id : Uuid} {environment : String} (record : Option ScanRun) :
      Move i w (.get id environment) .done .done (w.answered i (.get id environment) record w.scans)

variable {w w' : World} {i : Nat} {g g' : Pc} {effect : Effect}

theorem perform_move {ch : Choice} {reply : effect.Reply} (ha : protocol.allows g effect)
    (h : w.perform i ch effect = (reply, w')) : Move i w effect g (protocol.next g effect reply) w' := by
  obtain ⟨scans, hans, rfl⟩ := perform_answered h
  cases effect with
  | find environment key =>
    obtain ⟨hf, rfl⟩ := Prod.mk.inj hans
    cases g with
    | requested env scope window =>
      obtain ⟨rfl, rfl⟩ := ha
      cases reply with
      | none => exact .missing hf
      | some r => exact .found hf
    | _ => exact False.elim ha
  | insert environment s key correlationId =>
    cases g with
    | absent env scope window =>
      obtain ⟨rfl, rfl, rfl⟩ := ha
      simp only [answer] at hans
      split at hans
      · rename_i hins
        cases hans
        exact .inserted hins
      · cases hans
        exact .lost _
    | _ => exact False.elim ha
  | transition id expected target reason =>
    obtain ⟨hmoved, rfl⟩ := Prod.mk.inj hans
    cases g with
    | holding ticket =>
      obtain ⟨hnew, rfl, rfl, rfl⟩ := ha
      rw [count_isAt] at hmoved
      cases reply with
      | true => exact .claimed ch.now (by simpa using hmoved)
      | false => exact .passed ch.now (by simpa using hmoved)
    | ended ticket target =>
      obtain ⟨rfl, rfl, rfl⟩ := ha
      exact .stored ch.now _
    | _ => exact False.elim ha
  | get id environment =>
    obtain ⟨_, rfl⟩ := Prod.mk.inj hans
    cases g with
    | done => exact .read _
    | _ => exact False.elim ha
  | run ticket scope correlationId =>
    obtain ⟨_, rfl⟩ := Prod.mk.inj hans
    cases g with
    | claimed t =>
      obtain rfl := ha
      exact .ended _
    | _ => exact False.elim ha
  | issue environment scope window ticket =>
    obtain ⟨_, rfl⟩ := Prod.mk.inj hans
    cases g with
    | ticketed env s win t =>
      obtain ⟨rfl, rfl, rfl, rfl⟩ := ha
      exact .issued
    | _ => exact False.elim ha
  | finish ticket state =>
    obtain ⟨_, rfl⟩ := Prod.mk.inj hans
    cases g with
    | holding t =>
      obtain ⟨hdup, rfl, rfl⟩ := ha
      exact .repeated hdup
    | returning t s =>
      obtain ⟨rfl, rfl⟩ := ha
      exact .finished
    | _ => exact False.elim ha

/-- A new run is queued, a claim makes a queued run run, and the end of its pipeline
    gives a running one its last state: nothing else happens to a run. -/
theorem Move.shift (h : Move i w effect g g' w') (id : Uuid) :
    stateOf w'.scans id = stateOf w.scans id ∨
    (stateOf w.scans id = none ∧ stateOf w'.scans id = some .queued) ∨
    (stateOf w.scans id = some .queued ∧ stateOf w'.scans id = some .running ∧
      ∃ ticket, g' = .claimed ticket ∧ ticket.scanRunId = id) ∨
    (stateOf w.scans id = some .running ∧
      ∃ ticket target, g = .ended ticket target ∧ ticket.scanRunId = id ∧ stateOf w'.scans id = some target) := by
  cases h with
  | inserted hins =>
    rename_i id' now scans
    obtain ⟨hnone, hqueued, hother⟩ := stateOf_insert hins
    by_cases e : id = id'
    · subst e
      exact .inr (.inl ⟨hnone, hqueued⟩)
    · exact .inl (hother id e)
  | claimed now hqueued =>
    rename_i ticket reason
    by_cases e : id = ticket.scanRunId
    · subst e
      exact .inr (.inr (.inl ⟨hqueued, stateOf_moveRun hqueued, ticket, rfl, rfl⟩))
    · exact .inl (stateOf_moveRun_other (.inl e))
  | passed now hother =>
    rename_i ticket reason
    by_cases e : id = ticket.scanRunId
    · subst e
      exact .inl (stateOf_moveRun_other (.inr hother))
    · exact .inl (stateOf_moveRun_other (.inl e))
  | stored now moved =>
    rename_i ticket target reason
    by_cases e : id = ticket.scanRunId ∧ stateOf w.scans id = some .running
    · obtain ⟨rfl, hrunning⟩ := e
      exact .inr (.inr (.inr ⟨hrunning, ticket, target, rfl, rfl, stateOf_moveRun hrunning⟩))
    · exact .inl (stateOf_moveRun_other (Decidable.not_and_iff_or_not.mp e))
  | _ => exact .inl rfl

/-- A run keeps the key of its window. -/
theorem Move.named (h : Move i w effect g g' w') {environment idempotencyKey : String} {id : Uuid}
    (hn : Named w.scans environment idempotencyKey id) : Named w'.scans environment idempotencyKey id := by
  cases h with
  | inserted hins => exact named_insert hins hn
  | claimed now hqueued => exact named_moveRun hn
  | passed now hother => exact named_moveRun hn
  | stored now moved => exact named_moveRun hn
  | _ => exact hn

end

end WorkforceRisk.Scans

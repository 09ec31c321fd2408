import ProjectNight.Theory.Network

/-!
# Streams of a Run

What a run of the game queues is the concatenation of what its events queue,
each in the state it is handled in. A property of the whole queue that can be
read message by message is therefore settled by one event: `collect` goes along
the events of a run and gathers what each contributes, and `collect_queued` says
that this is what the queue holds.

## Main definitions

* `GameLogicSystem.collect`: What the events of a run contribute, in order.

## Theorems

* `collect_concat`, `collect_sublist`: Runs taken apart and compared.
* `collect_queued`: From one event to the queue of a run.
-/

namespace ProjectNight

namespace GameLogicSystem

variable {β : Type}

/-- What the events of a run from `g` contribute, when an event contributes
    `f rs event` in room system `rs`. -/
def collect (env : Env) (f : RoomSystem → ServerEvent → List β) (g : GameLogicSystem) :
    List ServerEvent → List β
  | [] => []
  | event :: events => f g.roomSystem event ++ collect env f (handleEvent env g event) events

variable (env : Env) {f f' : RoomSystem → ServerEvent → List β}

theorem collect_concat (events : List ServerEvent) (event : ServerEvent) (g : GameLogicSystem) :
    collect env f g (events ++ [event])
      = collect env f g events ++ f (g.update env events).roomSystem event := by
  induction events generalizing g with
  | nil => exact List.append_nil _
  | cons first events ih =>
      rw [List.cons_append, collect, collect, ih, List.append_assoc]
      rfl

/-- What contributes less at every event contributes less to every run. -/
theorem collect_sublist (h : ∀ rs event, (f rs event).Sublist (f' rs event))
    (events : List ServerEvent) (g : GameLogicSystem) :
    (collect env f g events).Sublist (collect env f' g events) := by
  induction events generalizing g with
  | nil => exact List.Sublist.slnil
  | cons event events ih => exact (h g.roomSystem event).append (ih _)

/-- A reading `P` of queues that takes them piece by piece, and that finds in
    what one event queues what the event contributes, finds in the queue of a run
    what the run contributes. -/
theorem collect_queued {P : List OutgoingMessage → List β} (hnil : P [] = [])
    (happend : ∀ a b, P (a ++ b) = P a ++ P b)
    (hstep : ∀ rs reads event, rs.WellFormed →
      P ((effect env reads rs event).messages.filter (fun out => env.fits out.payload))
        = f rs event) (events : List ServerEvent) :
    P (initial.update env events).outgoingMessages = collect env f initial events := by
  induction events using List.reverseRecOn with
  | nil => exact hnil
  | append_singleton events event ih =>
      rw [update_concat, outgoingMessages_step, happend, ih, collect_concat,
        hstep _ _ event (update_wellFormed env events)]

end GameLogicSystem

end ProjectNight

import Mathlib.Data.List.Basic

/-!
# The `closing` channel across `Open` and `Close`

Closing a closed channel panics in Go: a `PointsWriter` panics exactly on a `Close` right after
a `Close`, as its `Open` makes a fresh channel, and a `Service` on its second `Close`. A
`Service` built by `NewService` has a nil `Listener`, so its `serve` can also panic in `Accept`.
-/

namespace InfluxCloud.Cluster

/-- A `closing` channel: nil (a zero value), made and not closed, or closed. -/
inductive ClosingChan where
  | nil
  | made
  | closed
  deriving DecidableEq, Repr

/-- A call to `Open` or to `Close`. -/
inductive LifecycleCall where
  | openCall
  | closeCall
  deriving DecidableEq, Repr

/-- The channel `NewPointsWriter` makes. -/
def newPointsWriter : ClosingChan := .made

/-- `PointsWriter.Open`: a fresh channel, whatever was there. -/
def pointsWriterOpen (_ : ClosingChan) : Option ClosingChan := some .made

/-- `PointsWriter.Close`: a nil channel is left alone; closing a closed one panics (`none`). -/
def pointsWriterClose : ClosingChan → Option ClosingChan
  | .nil => some .nil
  | .made => some .closed
  | .closed => none

/-- The channel `NewService` makes. -/
def newService : ClosingChan := .made

/-- `Service.Open` starts `serve` and leaves `closing` as it is. `NewService` leaves `Listener`
nil: unless the caller assigned one (`hasListener`), `serve` calls `Accept` on the nil listener,
a panic (`none`) in every schedule where it runs before `closing` is closed. -/
def serviceOpen (hasListener : Bool) (c : ClosingChan) : Option ClosingChan :=
  if hasListener = true ∨ c = .closed then some c else none

/-- `Service.Close`: `close(s.closing)`, which panics (`none`) on a nil or closed channel. -/
def serviceClose : ClosingChan → Option ClosingChan
  | .made => some .closed
  | _ => none

/-- A sequence of lifecycle calls, given what `Open` and `Close` do; `none` is a panic. -/
def runLifecycle (opn cls : ClosingChan → Option ClosingChan) :
    ClosingChan → List LifecycleCall → Option ClosingChan
  | c, [] => some c
  | c, .openCall :: cs => (opn c).bind fun c' => runLifecycle opn cls c' cs
  | c, .closeCall :: cs => (cls c).bind fun c' => runLifecycle opn cls c' cs

lemma runLifecycle_pointsWriter (cs : List LifecycleCall) {c : ClosingChan} (hc : c ≠ .nil) :
    runLifecycle pointsWriterOpen pointsWriterClose c cs = none ↔
      (c = .closed ∧ [.closeCall] <+: cs) ∨ [.closeCall, .closeCall] <:+: cs := by
  induction cs generalizing c with
  | nil => simp [runLifecycle]
  | cons call cs ih =>
    cases call with
    | openCall =>
      simp [runLifecycle, pointsWriterOpen, ih, List.infix_cons_iff]
    | closeCall =>
      cases c with
      | nil => exact absurd rfl hc
      | made => simp [runLifecycle, pointsWriterClose, ih, List.infix_cons_iff]
      | closed => simp [runLifecycle, pointsWriterClose]

lemma runLifecycle_service (hasListener : Bool) (cs : List LifecycleCall) {c : ClosingChan}
    (hc : c ≠ .nil) :
    runLifecycle (serviceOpen hasListener) serviceClose c cs = none ↔
      (if c = .closed then 1 else 2) ≤ cs.count .closeCall ∨
        (hasListener = false ∧ c = .made ∧ .openCall ∈ cs.takeWhile (· != .closeCall)) := by
  induction cs generalizing c with
  | nil => cases c <;> simp [runLifecycle]
  | cons call cs ih =>
    cases c with
    | nil => exact absurd rfl hc
    | made =>
      cases call with
      | openCall => cases hasListener <;> simp [runLifecycle, serviceOpen, ih hc]
      | closeCall =>
        simp only [runLifecycle, serviceClose, Option.some_bind, @ih .closed (by decide)]
        simp
    | closed =>
      cases call with
      | openCall => simpa [runLifecycle, serviceOpen] using ih hc
      | closeCall => simp [runLifecycle, serviceClose]

/-- The panics of `Open` and `Close`. From `NewPointsWriter`, a sequence of calls panics exactly
when two `Close` calls follow each other. From `NewService`, it panics exactly when it holds two
`Close` calls, since `Service.Open` does not make a fresh channel, or, when no `Listener` was
assigned, when an `Open` comes before the first `Close`. -/
theorem open_close_panics_iff (hasListener : Bool) (cs : List LifecycleCall) :
    (runLifecycle pointsWriterOpen pointsWriterClose newPointsWriter cs = none ↔
      [.closeCall, .closeCall] <:+: cs) ∧
    (runLifecycle (serviceOpen hasListener) serviceClose newService cs = none ↔
      2 ≤ cs.count .closeCall ∨
        (hasListener = false ∧ .openCall ∈ cs.takeWhile (· != .closeCall))) := by
  constructor
  · simpa [newPointsWriter] using @runLifecycle_pointsWriter cs .made (by decide)
  · simpa [newService] using @runLifecycle_service hasListener cs .made (by decide)

/-- `Close`, `Open`, `Close`: the writer reopens its channel, the service does not; and a
`Service` with no `Listener` panics on its first `Open`. -/
example :
    runLifecycle pointsWriterOpen pointsWriterClose newPointsWriter [.closeCall, .openCall, .closeCall] =
      some .closed ∧
    runLifecycle (serviceOpen true) serviceClose newService [.closeCall, .openCall, .closeCall] =
      none ∧
    runLifecycle (serviceOpen false) serviceClose newService [.openCall, .closeCall] = none := by
  decide

end InfluxCloud.Cluster

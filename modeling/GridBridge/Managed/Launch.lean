import GridBridge.Managed.Runtime

/-!
# Managed: life cycle of the runtime

One launcher hosts at most one runtime, as a process does. A launch that fails leaves everything as
it was, apart from the armed fault it has used up.
-/

namespace GridBridge.Managed

open Protocol Seam

/-- Whether a launcher takes these arguments: first the version, then every option. -/
def checkLaunch (args : LaunchArgs) : Except Status Unit :=
  if args.version < runtimeVersion then .error Status.version
  else if args.ignoreUnrecognized || args.options.all (·.toList.head? == some '-') then .ok ()
  else .error Status.invalid

/-- Why a launch comes to nothing. -/
inductive LaunchRefusal where
  /-- There is a runtime, or there was one. -/
  | created
  /-- The arguments do not hold. -/
  | arguments (code : Status)
  /-- A code was armed. -/
  | armed (code : Status)
  deriving DecidableEq, Repr

/-- The code that a refusal is reported with. -/
def LaunchRefusal.status : LaunchRefusal → Status
  | .created => Status.alreadyExists
  | .arguments code | .armed code => code

namespace Runtime

/-- Creates the runtime and attaches the calling thread, or says why not. That its workers cannot be
started, for lack of threads or memory, is left out: they always can. -/
def tryLaunch (rt : Runtime) (thread : ThreadId) (args : LaunchArgs) :
    Except LaunchRefusal Unit × Runtime :=
  if rt.phase ≠ .idle then (.error .created, rt)
  else
    match checkLaunch args with
    | .error code => (.error (.arguments code), rt)
    | .ok () =>
      if rt.faults.createError ≠ Status.ok then
        (.error (.armed rt.faults.createError),
          { rt with faults := { rt.faults with createError := Status.ok } })
      else
        (.ok (), { rt with phase := .running, options := args.options }.attachThread thread)

/-- Creates the runtime and attaches the calling thread. A refusal is told by its code alone. Workers
that cannot be started are left out, as they are in `tryLaunch`. -/
def launch (rt : Runtime) (thread : ThreadId) (args : LaunchArgs) : Except Status Unit × Runtime :=
  ((rt.tryLaunch thread args).1.mapError LaunchRefusal.status, (rt.tryLaunch thread args).2)

/-- A launch with its refusals as codes. -/
theorem launch_eq (rt : Runtime) (thread : ThreadId) (args : LaunchArgs) :
    rt.launch thread args =
      if rt.phase ≠ .idle then (.error Status.alreadyExists, rt)
      else
        match checkLaunch args with
        | .error code => (.error code, rt)
        | .ok () =>
          if rt.faults.createError ≠ Status.ok then
            (.error rt.faults.createError,
              { rt with faults := { rt.faults with createError := Status.ok } })
          else
            (.ok (), { rt with phase := .running, options := args.options }.attachThread thread) := by
  unfold launch tryLaunch
  by_cases hbegun : rt.phase ≠ .idle
  · rw [if_pos hbegun, if_pos hbegun]
    rfl
  · rw [if_neg hbegun, if_neg hbegun]
    cases checkLaunch args with
    | error code => rfl
    | ok _ =>
      dsimp only
      split <;> rfl

/-- Attaches the calling thread to a running runtime. -/
def attach (rt : Runtime) (thread : ThreadId) : Except Status Unit × Runtime :=
  if rt.phase ≠ .running then (.error Status.detached, rt)
  else if rt.faults.refuseAttach then (.error Status.err, rt)
  else (.ok (), rt.attachThread thread)

/-- Shuts the runtime down: no task runs any more and no completion comes in. Shutting down again
changes nothing. -/
def destroy (rt : Runtime) : Runtime :=
  if rt.phase = .destroyed then rt
  else
    { rt with
      phase := .destroyed
      tasks := []
      grid := rt.grid.stopAll
      attached := []
      entry := none }

end Runtime

end GridBridge.Managed

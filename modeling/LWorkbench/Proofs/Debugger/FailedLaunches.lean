import LWorkbench.Proofs.Debugger.Conversations

/-!
# Launches that fail

A launch can fail because its arguments cannot be read, because the client asks for a compile error,
or because there is no program to read or to parse. In all cases the program that was loaded before
stays as it is, with its machine and the handles into it, and whatever the client asks next is
answered as if the launch had not been sent. Only where the session stands may be another place: it
is idle, unless not even the arguments could be read.

## Main results

* `Session.launch_failure_cases` — the two ways in which a launch fails
* `Session.launch_failure_keeps_debuggee` — what a failed launch leaves, and what is told after it
-/

namespace LWorkbench.Session

variable {s s' : Session} {request : Request} {reply : Reply} {fuel : Nat}
  {read : String → Except ReadError String}

/-- A launch fails because of its arguments, which leaves the session alone, or because there is no
program to start, which leaves it idle. -/
theorem launch_failure_cases (hlaunches : request.launches = true)
    (hhandle : s.handle? read fuel request = some (s', reply))
    (hfails : reply.answer.isSuccess = false) :
    (request.launchArguments? = none ∧ s' = s ∧ reply = .badArguments request) ∨
      ∃ arguments e, request.launchArguments? = some arguments ∧
        fetch read arguments = .error e ∧ s' = { s with state := .idle } ∧
        reply = ⟨.error e, [], !s.configured⟩ := by
  have hkind := Request.launches_iff.1 hlaunches
  rw [handle?_eq_obey? (by rw [hkind]; nofun), hkind] at hhandle
  change s.launch? read fuel request = _ at hhandle
  cases harguments : request.launchArguments? with
  | none =>
    rw [launch?_of_none harguments] at hhandle
    cases hhandle
    exact .inl ⟨rfl, rfl, rfl⟩
  | some arguments =>
    cases hfetch : fetch read arguments with
    | error e =>
      rw [launch?_of_error harguments hfetch] at hhandle
      cases hhandle
      exact .inr ⟨arguments, e, rfl, hfetch, rfl, rfl⟩
    | ok found =>
      -- A program that is started is no failure, whatever becomes of it.
      rw [launch?_of_ok harguments hfetch] at hhandle
      obtain ⟨r, -, heq⟩ := Option.map_eq_some_iff.1 hhandle
      cases heq
      cases hfails

/-- A failed launch leaves the program that is loaded, its machine and the handles into it as they
are, and tells no event. The session is idle after it, unless the arguments could not be read: then
it stands where it stood. Whatever is asked from then on gets the same messages as without the
launch. -/
theorem launch_failure_keeps_debuggee (hlaunches : request.launches = true)
    (hhandle : s.handle? read fuel request = some (s', reply))
    (hfails : reply.answer.isSuccess = false) :
    s'.debuggee = s.debuggee ∧ s'.configured = s.configured ∧ s'.disconnected = s.disconnected ∧
    s'.state = (if request.launchArguments?.isSome then .idle else s.state) ∧
    reply.events = [] ∧
    ∀ calls, (s'.handleAll? calls).map (fun r => (r.1.debuggee, r.2.map Turn.messages)) =
      (s.handleAll? calls).map fun r => (r.1.debuggee, r.2.map Turn.messages) := by
  obtain ⟨harguments, rfl, rfl⟩ | ⟨arguments, e, harguments, -, rfl, rfl⟩ :=
    launch_failure_cases hlaunches hhandle hfails
  · refine ⟨rfl, rfl, rfl, ?_, rfl, fun _ => rfl⟩
    rw [harguments]
    rfl
  · refine ⟨rfl, rfl, rfl, ?_, rfl, Twins.map_handleAll? ⟨rfl, rfl⟩⟩
    rw [harguments]
    rfl

/-- A program of two blocks that is to stop at its entry. -/
def launchOfBlocks : Call where
  request := ⟨1, "launch", .object [("stopOnEntry", .bool true)]⟩
  read _ := .ok "\x7b\x7d\x7b\x7d"
  fuel := 1

/-- A launch of a file that does not exist. -/
def launchOfNothing : Call where
  request := ⟨2, "launch", .null⟩
  read _ := .error .notFound
  fuel := 1

theorem launch_launchOfBlocks :
    ((start true).launch? launchOfBlocks.read 1 launchOfBlocks.request).map
      (fun r => (r.1.state, r.1.debuggee.loaded.isSome)) = some (.stopped, true) := by
  decide +kernel

/-- A session that is stopped at the entry of a program and to which then a launch is sent that
fails. -/
theorem exists_failed_launch : ∃ s s' reply reply',
    (start true).handleAll? [launchOfBlocks] = some (s, [(launchOfBlocks.request, reply)]) ∧
    s.handle? launchOfNothing.read 1 launchOfNothing.request = some (s', reply') ∧
    reply'.answer.isSuccess = false ∧ s.debuggee.loaded.isSome = true ∧
    s.state = .stopped ∧ s'.state = .idle := by
  obtain ⟨⟨s, reply⟩, hlaunch, hleft⟩ := Option.map_eq_some_iff.1 launch_launchOfBlocks
  obtain ⟨hstate, hloaded⟩ := Prod.mk.inj hleft
  have hfirst : (start true).handle? launchOfBlocks.read 1 launchOfBlocks.request =
      some (s, reply) := hlaunch
  have hsecond : s.handle? launchOfNothing.read 1 launchOfNothing.request =
      some ({ s with state := .idle }, ⟨.error (readError "" .notFound), [], !s.configured⟩) := rfl
  exact ⟨s, _, reply, _, handleAll?_singleton_eq_some_iff.2 ⟨reply, hfirst, rfl⟩, hsecond, rfl,
    hloaded, hstate, rfl⟩

/-- Where a session stands is not kept by a launch that fails: it was stopped, and is idle. -/
theorem failed_launch_leaves_idle : ∃ s s' turns reply,
    (start true).handleAll? [launchOfBlocks] = some (s, turns) ∧
    s.handle? launchOfNothing.read 1 launchOfNothing.request = some (s', reply) ∧
    reply.answer.isSuccess = false ∧ s.state = .stopped ∧ s'.state = .idle := by
  obtain ⟨s, s', _, reply, hfirst, hsecond, hfails, -, hstopped, hidle⟩ := exists_failed_launch
  exact ⟨s, s', _, reply, hfirst, hsecond, hfails, hstopped, hidle⟩

/-- The program of that session is still there after the launch that fails. -/
theorem launch_failure_keeps_debuggee_missing : ∃ s s' turns reply,
    (start true).handleAll? [launchOfBlocks] = some (s, turns) ∧
    s.handle? launchOfNothing.read 1 launchOfNothing.request = some (s', reply) ∧
    reply.answer.isSuccess = false ∧ s.debuggee.loaded.isSome = true ∧
    s'.debuggee = s.debuggee := by
  obtain ⟨s, s', _, reply, hfirst, hsecond, hfails, hloaded, -, -⟩ := exists_failed_launch
  exact ⟨s, s', _, reply, hfirst, hsecond, hfails, hloaded,
    (launch_failure_keeps_debuggee rfl hsecond hfails).1⟩

end LWorkbench.Session

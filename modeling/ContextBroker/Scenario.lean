import ContextBroker.Scenario.Script
import ContextBroker.Timeline
import ContextBroker.Timer.Manual
import ContextBroker.Worker.Load

set_option autoImplicit false

/-! # A broker among scripted parties

A `Scenario` is a broker with all that surrounds it on one thread and a virtual clock: its handles,
its timer, and the providers, requesters and observers it calls back.

What is to be done at once stands on the *agenda*, innermost first; so an observer's own reports are
told before the next observer hears of the first. What can wait its turn stands in the *line*: the
worker, which stays at the head while it has something to take, the calls it asks for, and those who
sleep until a moment.

The broker ends once nobody holds it. Besides the handles, these hold it:

* a report, until the observers are told;
* a call in a callback. The callback goes on without its reply; whoever is to take that stands in
  line from then on, behind the worker, and lets the broker go when its turn comes;
* a call that was put off. Its caller has nothing else to do and sleeps until the reply comes, which
  puts it back in line;
* a call from outside, until nothing else can be done.

Every turn lowers the weight of what is left, or leaves it and shortens the agenda. So a scenario
comes to rest by itself (the `Clocked` instance). -/

namespace ContextBroker

/-- How timeouts elapse. -/
inductive Timing
  /-- When their time is over. -/
  | clock
  /-- When they are fired by hand. -/
  | manual
  /-- As soon as they are set. -/
  | immediate
  deriving DecidableEq, Inhabited

namespace Scenario

/-- Something to do at once. -/
inductive Frame
  | perform (step : Step) (scene : Scene)
  /-- A step is done whose delay is over. -/
  | resume (step : Step) (scene : Scene)
  /-- A provider is asked for a state. -/
  | pull (target : PollTarget) (token : Token)
  /-- A requester is given its outcome. -/
  | deliver (requester : Requester) (token : Token) (outcome : Outcome)
  /-- An observer is told of a change. -/
  | tell (observer : Observer) (notice : Notice)
  /-- A timeout's time is over. -/
  | elapse (timer : TimerId) (token : Token) (generation : Nat)
  /-- All observers are told of a report, which holds the broker no longer. -/
  | letGo
  deriving Inhabited

/-- Something to do when its turn comes. -/
inductive Job
  /-- The worker takes what it can. -/
  | work
  | act (frames : List Frame)
  /-- Goes to sleep first. -/
  | wait (duration : Nat) (frame : Frame)
  deriving Inhabited

/-- Something that can be seen of a scenario. -/
inductive Event
  /-- The worker's wish was fulfilled. -/
  | did (effect : Effect)
  | pulled (target : PollTarget) (token : Token)
  | told (observer : Observer) (notice : Notice)
  deriving Inhabited

/-- What comes of a step at once. -/
inductive Result
  | called (response : Response) (ticket : Ticket)
  | noHandle
  | nothing
  /-- Whether there was something to remove, drop or fire. -/
  | found (found : Bool)
  /-- The number of the new handle. -/
  | shared (handle : Nat)
  | info (config : Config) (shuttingDown : Bool)
  deriving Inhabited

/-- The ticket of a reply that is still to come. -/
def Result.awaited? : Result → Option Ticket
  | .called .awaited ticket => some ticket
  | _ => none

end Scenario

open Scenario in
/-- A broker and its surroundings. -/
structure Scenario where
  broker : Broker := {}
  timing : Timing := .clock
  /-- The timeouts that elapse by the clock. -/
  timer : Timer := {}
  /-- The timeouts that wait to be fired. -/
  manual : ManualTimer := {}
  line : Timeline Job := {}
  agenda : List Frame := []
  providers : SortedMap Provider Party := ∅
  requesters : SortedMap Requester Party := ∅
  observers : SortedMap Observer Party := ∅
  /-- Which handles are still held. -/
  handles : List Bool := [true]
  /-- The calls whose callers stand in line again when the reply comes. -/
  awaited : List Ticket := []
  /-- The number of calls from outside that wait for their reply. -/
  waiting : Nat := 0
  /-- The number of calls made. -/
  tickets : Nat := 0
  log : List Event := []
  /-- What the time of day reads throughout. -/
  today : Timestamp := default
  deriving Inhabited

namespace Scenario

/-- Adds to the log. -/
def note (s : Scenario) (e : Event) : Scenario := { s with log := s.log ++ [e] }

/-- Puts a job at the end of the line. -/
def spawn (s : Scenario) (job : Job) : Scenario := { s with line := s.line.spawn job }

/-- Whether the worker stands in line. -/
def worksSoon (s : Scenario) : Bool := s.line.ready.any fun job => job matches .work

/-- Puts the worker in line if it has something to take. -/
def wake (s : Scenario) : Scenario :=
  if s.broker.queue.isIdle || s.worksSoon then s else s.spawn .work

/-- What the worker finds around it. -/
def around (s : Scenario) : Surroundings :=
  ⟨s.today, fun p => ((s.providers.get? p).map (·.retrievable)).getD true⟩

/-! ## Who holds the broker -/

/-- One more holds the broker. -/
def hold (s : Scenario) : Scenario := { s with broker := s.broker.share }

/-- One less holds the broker. -/
def letGo (s : Scenario) : Scenario := { s with broker := s.broker.drop }.wake

/-- Someone stands in line to let the broker go. -/
def leave (s : Scenario) : Scenario := s.spawn (.act [.letGo])

/-- Someone holds the broker until the reply has come under `ticket`, and then stands in line to
    let it go. -/
def await (s : Scenario) (ticket : Ticket) : Scenario :=
  { s.hold with awaited := ticket :: s.awaited }

/-- The reply has come under `ticket`. -/
def answered (s : Scenario) (ticket : Ticket) : Scenario :=
  if ticket ∈ s.awaited then { s with awaited := s.awaited.erase ticket }.leave else s

/-- A caller from outside holds the broker until nothing else can be done. -/
def remain (s : Scenario) : Scenario := { s.hold with waiting := s.waiting + 1 }

/-! ## Steps -/

/-- The party that a step brings in. -/
def Step.party (step : Step) (retrievable : Bool) : Party :=
  ⟨retrievable, step.script, step.times⟩

/-- The table with a party at `n`, unless one is there. -/
def introduce (parties : SortedMap Nat Party) (n : Nat) (p : Party) : SortedMap Nat Party :=
  if parties.contains n then parties else parties.insert n p

/-- Brings in the party that an action needs. -/
def bringIn (s : Scenario) (step : Step) : Scenario :=
  match step.action with
  | .register _ provider _ retrievable =>
    { s with providers := introduce s.providers provider (step.party retrievable) }
  | .getContext .. | .getDefaultContext =>
    { s with requesters := introduce s.requesters s.tickets (step.party true) }
  | .addObserver o | .removeObserver o =>
    { s with observers := introduce s.observers o (step.party true) }
  | .setRetrievable provider retrievable =>
    { s with providers := introduce s.providers provider (step.party retrievable) }
  | _ => s

/-- Tells observers of a report, before anything else is done. -/
def announce (s : Scenario) (notice : Notice) (observers : List Observer) : Scenario :=
  { s.hold with agenda := observers.map (.tell · notice) ++ .letGo :: s.agenda }

/-- Makes a call. -/
def call (s : Scenario) (c : Call) : Scenario × Result :=
  let ticket := s.tickets
  let (broker, response) := s.broker.call ticket c
  let s := { s with broker, tickets := ticket + 1 }
  let s := match response with
    | .announced notice observers => s.announce notice observers
    | _ => s
  (s.wake, .called response ticket)

/-- Fires a timeout that waits to be fired. -/
def fire (s : Scenario) (id : TimerId) : Scenario × Result :=
  match s.manual.fire? id with
  | none => (s, .found false)
  | some (token, generation, manual) =>
    ({ s with manual, broker := s.broker.elapse token generation }.wake, .found true)

/-- Whether a handle is held. -/
def holds (s : Scenario) (handle : Nat) : Bool := s.handles.getD handle false

/-- Does what takes a handle. -/
def actWith (s : Scenario) (step : Step) (scene : Scene) : Scenario × Result :=
  match step.action with
  | .addObserver o =>
    ({ s.bringIn step with broker.hub := s.broker.hub.add o }, .nothing)
  | .removeObserver o =>
    ({ s.bringIn step with broker.hub := s.broker.hub.remove o },
      .found (s.broker.hub.contains o))
  | .info => (s, .info s.broker.config s.broker.shuttingDown)
  | .share =>
    ({ s with broker := s.broker.share, handles := s.handles ++ [true] }, .shared s.handles.length)
  | .drop =>
    ({ s with broker := s.broker.drop, handles := s.handles.set step.handle false }.wake,
      .found true)
  | action =>
    match action.call? scene s.tickets with
    | some c => (s.bringIn step).call c
    | none => (s, .nothing)

/-- Changes what a provider reports of itself. -/
def setRetrievable (s : Scenario) (provider : Provider) (retrievable : Bool) : Scenario :=
  match s.providers.get? provider with
  | some p => { s with providers := s.providers.insert provider { p with retrievable } }
  | none => s

/-- Does a step, whatever its delay. -/
def act (s : Scenario) (step : Step) (scene : Scene) : Scenario × Result :=
  match step.action with
  | .fire id => s.fire id
  | .setRetrievable provider retrievable =>
    ((s.bringIn step).setRetrievable provider retrievable, .nothing)
  | action =>
    if s.holds step.handle then s.actWith step scene
    else (s, if action = .drop then .found false else .noHandle)

/-! ## Callbacks -/

/-- Calls a party back, and lets it do its script. -/
def callBack (parties : SortedMap Nat Party) (n : Nat) (scene : Scene) :
    SortedMap Nat Party × List Frame :=
  match parties.get? n with
  | none => (parties, [])
  | some p =>
    let (steps, p) := p.called
    (parties.insert n p, steps.map (.perform · scene))

/-- Does what stands on the agenda. -/
def runFrame (s : Scenario) : Frame → Scenario
  | .perform step scene =>
    match step.delay with
    | some d => s.spawn (.wait d (.resume step scene))
    | none =>
      let (s, result) := s.act step scene
      if result.awaited?.isSome then s.hold.leave else s
  | .resume step scene =>
    let (s, result) := s.act step scene
    match result.awaited? with
    | some ticket => s.await ticket
    | none => s
  | .pull target token =>
    let (providers, frames) :=
      callBack s.providers target.provider ⟨target.identity, token⟩
    { s with providers, agenda := frames ++ s.agenda }.note (.pulled target token)
  | .deliver requester token outcome =>
    let (requesters, frames) := callBack s.requesters requester { token }
    { s with requesters, agenda := frames ++ s.agenda }.note
      (.did (.deliver requester token outcome))
  | .tell observer notice =>
    let (observers, frames) := callBack s.observers observer { identity := notice.identity }
    { s with observers, agenda := frames ++ s.agenda }.note (.told observer notice)
  | .elapse id token generation =>
    match s.timer.elapse? id with
    | some timer => { s with timer, broker := s.broker.elapse token generation }.wake
    | none => s
  | .letGo => s.letGo

/-! ## The worker's wishes -/

/-- Fulfils an effect, or puts it in line. -/
def fulfil (s : Scenario) (e : Effect) : Scenario :=
  match e with
  | .reply ticket _ => (s.note (.did e)).answered ticket
  | .poll token targets => s.spawn (.act (targets.map (.pull · token)))
  | .deliver requester token outcome => s.spawn (.act [.deliver requester token outcome])
  | .setTimer id delay token generation =>
    let s := s.note (.did e)
    match s.timing with
    | .clock =>
      { s with timer := s.timer.arm id }.spawn (.wait delay (.elapse id token generation))
    | .manual => { s with manual := s.manual.set id token generation }
    | .immediate => { s with broker := s.broker.elapse token generation }.wake
  | .cancelTimer id =>
    let s := s.note (.did e)
    match s.timing with
    | .clock => { s with timer := s.timer.cancel id }
    | .manual | .immediate => s

/-! ## Turns -/

/-- Does what comes next: the agenda before the line, and the callers last, who take their replies.
    `none` when nothing can be done now. -/
def turn? (s : Scenario) : Option Scenario :=
  match s.agenda with
  | frame :: agenda => some ({ s with agenda }.runFrame frame)
  | [] =>
    match s.line.ready with
    | [] =>
      match s.waiting with
      | 0 => none
      | waiting + 1 => some { s with waiting }.letGo
    -- The worker stays at the head of the line until it finds nothing to take.
    | .work :: ready =>
      match s.broker.work? s.around with
      | some (broker, effects) => some (effects.foldl fulfil { s with broker })
      | none => some { s with line.ready := ready }
    | .act frames :: ready => some { s with line.ready := ready, agenda := frames }
    | .wait duration frame :: ready =>
      let s := { s with line.ready := ready }
      -- A time of zero is over at once; there is nothing to sleep for.
      if duration = 0 then some { s with agenda := [frame] }
      else some { s with line := s.line.sleep duration (.act [frame]) }

end Scenario

end ContextBroker

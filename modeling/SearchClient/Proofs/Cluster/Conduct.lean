import SearchClient.Proofs.Cluster.FaithfulTrail
import SearchClient.Proofs.Cluster.PingFirst
import SearchClient.Proofs.Program.Crowd

/-!
# How a request conducts itself among others

A request that runs together with others cannot tell what they do while it waits. What it does
itself is told by its moves, and what it may do next by its place: `Goes` lists every move with what
it changes in the scene. Since the rules name the whole scene after a move, they say as well what a
move leaves alone.

`Program.Conducts` says that a program keeps to the rules whatever the others do: the scene in which
it goes on after a wait is arbitrary. `Conducts.bind` puts programs together, and the lemmas beside
it step over the single operations.
-/

set_option autoImplicit false
set_option relaxedAutoImplicit false

namespace SearchClient.Send

open Program

/-! ### Places and moves -/

/-- Why the cluster is asked for its nodes. -/
inductive Occasion where
  | startup
  | stale
  | fault
  deriving DecidableEq, Repr

/-- What is kept of a node that was tried: it failed at a moment, or it answered. -/
inductive Mark where
  | dead (moment : Nat)
  | alive
  deriving DecidableEq, Repr

/-- The health of a node that is marked. -/
def Mark.apply (s : Settings) : Mark → Health → Health
  | dead moment, h => h.fail moment s.deadTimeout s.maxDeadTimeout
  | alive, _ => Health.recovered

/-- What a request knows about a node that it tries. -/
inductive Verdict where
  | undecided
  | failed
  | answered
  deriving DecidableEq, Repr

namespace Verdict

/-- What the answer to a ping tells. -/
def ofPing : Except LinkFault Reply → Verdict
  | .ok reply => if isSuccess reply.status then undecided else failed
  | .error _ => failed

/-- What the answer to the request tells. -/
def ofAttempt : Except LinkFault Reply → Verdict
  | .ok reply => if isRetryable reply.status then failed else answered
  | .error _ => failed

/-- The mark that a verdict calls for at a moment. A node that no ping can be made for has
failed. -/
inductive CallsFor (s : Settings) (url : Url) (moment : Nat) : Verdict → Mark → Prop
  | failed : CallsFor s url moment failed (.dead moment)
  | unpingable {timeout : Nat} {what : Unsendable}
      (hping : pingMessage s url timeout = .error what) :
      CallsFor s url moment undecided (.dead moment)
  | answered : CallsFor s url moment answered .alive

end Verdict

/-- How far a request has come. A view is the ring as it was when the request began to walk it. -/
inductive Place where
  /-- It has not come to the first sniff. -/
  | fresh
  /-- It was sent to the node that it names. -/
  | bound
  /-- It has the turn and has to find out whether it is the first. -/
  | admitted
  /-- It has the turn and asks for nodes. -/
  | asking (occasion : Occasion)
  /-- It was told nodes, which make up the pool now. -/
  | learnt (occasion : Occasion)
  /-- After a fault: the time of the sniff is read, and the turn is waited for. -/
  | timed (moment : Nat)
  /-- After a fault: it has the turn and has to store the time that it read before. -/
  | due (moment : Nat)
  /-- The time of the sniff is stored, and the turn has to be given away. -/
  | kept (occasion : Occasion)
  /-- Nobody told it nodes before the first request. -/
  | stranded
  /-- The first sniff is no more its concern. -/
  | passed
  /-- It has the turn and has to find out how old the last sniff is. -/
  | weighing
  /-- The last sniff is young, and the turn has to be given away. -/
  | young
  /-- It may set out. -/
  | ready
  /-- It may set out anew. -/
  | renewed
  /-- It walks a view, and after a node failed it may ask for nodes. -/
  | walking (view : List Nat)
  /-- It tries a node of its view. -/
  | trying (view : List Nat) (number : Nat) (url : Url) (verdict : Verdict)
  deriving DecidableEq, Repr

namespace Place

/-- Nothing is left to do. -/
def isLast : Place → Bool
  | bound | stranded => true
  | _ => false

/-- What the clock shows matters. -/
def heedsTime : Place → Bool
  | weighing | learnt .fault => true
  | _ => false

/-- The turn at the sniff has been given to the request. -/
def holdsTurn : Place → Bool
  | admitted | asking _ | learnt .startup | learnt .stale | due _ | kept _ | weighing | young =>
    true
  | _ => false

/-- The request is in the first sniff. -/
def isFirst : Place → Bool
  | asking occasion | learnt occasion | kept occasion => occasion == .startup
  | _ => false

/-- Where a sniff leaves a request whose turn is over. -/
def after : Occasion → Place
  | .startup => passed
  | .stale => ready
  | .fault => renewed

/-- The places at which the cluster can be asked on an occasion. -/
inductive Consults : Place → Occasion → Prop
  | asking {occasion : Occasion} (hoccasion : occasion ≠ .fault) :
      (Place.asking occasion).Consults occasion
  | walking (view : List Nat) : (Place.walking view).Consults .fault

end Place

/-- What a request does. -/
inductive Move where
  /-- Nothing that the others could notice. -/
  | idle
  /-- The request is sent to the one node that it names. -/
  | direct (message : Message) (answer : Except LinkFault Reply)
  /-- The turn is taken. -/
  | enter (occasion : Occasion)
  /-- The turn is given away without a sniff. -/
  | leave
  /-- The first sniff begins. -/
  | begin
  /-- A node is asked for the nodes of the cluster. -/
  | ask (occasion : Occasion) (message : Message) (answer : Except LinkFault Reply)
  /-- New nodes take the place of all. -/
  | reseed (occasion : Occasion) (found : List Node)
  /-- The time of a sniff after a fault is read. -/
  | read (moment : Nat)
  /-- The time of a sniff is stored. -/
  | store (occasion : Occasion) (moment : Nat)
  /-- The turn is given away after a sniff, in which nodes were told or not. -/
  | finish (occasion : Occasion) (told : Bool)
  /-- The last sniff is found to be young or old. -/
  | weigh (moment : Nat) (young : Bool)
  /-- The walk of a new view begins. -/
  | view
  /-- The next node is taken from the view, if one is left. -/
  | stride (found : Option (Nat × Url))
  /-- A node of the view gets a ping. -/
  | ping (number : Nat) (url : Url) (message : Message) (answer : Except LinkFault Reply)
  /-- A node of the view gets the request. -/
  | attempt (number : Nat) (url : Url) (message : Message) (answer : Except LinkFault Reply)
  /-- A node of the view is marked. -/
  | mark (number : Nat) (url : Url) (what : Mark)

namespace Move

/-- The exchange that a move is. -/
def exchange? : Move → Option Exchange
  | direct message answer | ask _ message answer | ping _ _ message answer
  | attempt _ _ message answer => some (message, answer)
  | _ => none

/-- The time that a move stores. -/
def stored? : Move → Option Nat
  | store _ moment => some moment
  | _ => none

/-- Whether the first sniff has begun after a move. -/
def begunAfter (begun : Bool) : Move → Bool
  | begin => true
  | _ => begun

end Move

/-! ### Rules -/

/-- Whether a request asks the cluster for its nodes if nobody has yet. -/
def asksFirst (s : Settings) (r : Request) (sh : Shared) : Bool :=
  sh.pool.kind.takesNewNodes && s.sniffOnStartup && !r.overrides.disableSniff

/-- Whether a request looks how old the last sniff is. -/
def asksWhenOld (s : Settings) (r : Request) (sh : Shared) : Bool :=
  s.sniffLifespan.isSome && (sh.pool.kind.takesNewNodes && !r.overrides.disableSniff)

variable [Url.Domain.Spelling]

/-- What a request may do at a place in a scene, where it is then, and what the scene is then. -/
inductive Goes (s : Settings) (r : Request) (who : Nat) :
    Place → Scene → Move → Place → Scene → Prop
  | look {place : Place} {sc : Scene} (hplace : place.isLast = false) :
      Goes s r who place sc .idle place sc
  | clock {place : Place} {sc : Scene} {moment : Nat} (hplace : place.isLast = false)
      (hheedless : place.heedsTime = false) (hmoment : sc.moment ≤ moment) :
      Goes s r who place sc .idle place { sc with moment := moment }
  | direct {sc : Scene} {node : Url} (message : Message) (answer : Except LinkFault Reply)
      (honly : r.overrides.onlyNode = some node) :
      Goes s r who .fresh sc (.direct message answer) .bound sc
  -- The first sniff.
  | pass {sc : Scene} (hopen : r.overrides.onlyNode = none)
      (hasks : asksFirst s r sc.shared = false) : Goes s r who .fresh sc .idle .passed sc
  | enterFirst {sc : Scene} (hopen : r.overrides.onlyNode = none) (hturn : sc.turn = none) :
      Goes s r who .fresh sc (.enter .startup) .admitted { sc with turn := some who }
  | leaveFirst {sc : Scene} (hstarted : sc.shared.started = true) :
      Goes s r who .admitted sc .leave .passed { sc with turn := none }
  | begin {sc : Scene} (hstarted : sc.shared.started = false) :
      Goes s r who .admitted sc .begin (.asking .startup)
        { sc with shared := { sc.shared with started := true } }
  | strand {sc : Scene} :
      Goes s r who (.asking .startup) sc (.finish .startup false) .stranded { sc with turn := none }
  -- The age of the last sniff.
  | spare {sc : Scene} (hasks : asksWhenOld s r sc.shared = false) :
      Goes s r who .passed sc .idle .ready sc
  | enterOld {sc : Scene} (hturn : sc.turn = none) :
      Goes s r who .passed sc (.enter .stale) .weighing { sc with turn := some who }
  | young {sc : Scene} {moment lifespan : Nat} (hlifespan : s.sniffLifespan = some lifespan)
      (hmoment : sc.moment ≤ moment) (hyoung : moment - sc.shared.lastSniff < lifespan) :
      Goes s r who .weighing sc (.weigh moment true) .young { sc with moment := moment }
  | old {sc : Scene} {moment lifespan : Nat} (hlifespan : s.sniffLifespan = some lifespan)
      (hmoment : sc.moment ≤ moment) (hold : lifespan ≤ moment - sc.shared.lastSniff) :
      Goes s r who .weighing sc (.weigh moment false) (.asking .stale) { sc with moment := moment }
  | leaveYoung {sc : Scene} : Goes s r who .young sc .leave .ready { sc with turn := none }
  | carryOn {sc : Scene} :
      Goes s r who (.asking .stale) sc (.finish .stale false) .ready { sc with turn := none }
  -- What all sniffs have in common.
  | ask {place : Place} {sc : Scene} {occasion : Occasion} {message : Message}
      (answer : Except LinkFault Reply) (hplace : place.Consults occasion)
      (hmessage : Asks s message) :
      Goes s r who place sc (.ask occasion message answer) place sc
  | reseed {place : Place} {sc : Scene} {occasion : Occasion} {body : Text.Bytes} {asked : Url}
      {found : List Node} (hplace : place.Consults occasion)
      (hfound : Sniff.readNodes body asked s.skipManagerOnly = .ok found) :
      Goes s r who place sc (.reseed occasion found) (.learnt occasion)
        { sc with shared := { sc.shared with pool := (sc.shared.pool.reseed found).1 } }
  | store {sc : Scene} {occasion : Occasion} (hoccasion : occasion ≠ .fault) :
      Goes s r who (.learnt occasion) sc (.store occasion sc.moment) (.kept occasion)
        { sc with shared := { sc.shared with lastSniff := sc.moment } }
  | finish {sc : Scene} {occasion : Occasion} :
      Goes s r who (.kept occasion) sc (.finish occasion true) (Place.after occasion)
        { sc with turn := none }
  -- The time of a sniff after a fault is read before the turn is taken.
  | read {sc : Scene} {moment : Nat} (hmoment : sc.moment ≤ moment) :
      Goes s r who (.learnt .fault) sc (.read moment) (.timed moment) { sc with moment := moment }
  | enterFault {sc : Scene} {moment : Nat} (hturn : sc.turn = none) :
      Goes s r who (.timed moment) sc (.enter .fault) (.due moment) { sc with turn := some who }
  | storeFault {sc : Scene} {moment : Nat} :
      Goes s r who (.due moment) sc (.store .fault moment) (.kept .fault)
        { sc with shared := { sc.shared with lastSniff := moment } }
  -- The walk.
  | view {place : Place} {sc : Scene} (hplace : place = .ready ∨ place = .renewed) :
      Goes s r who place sc .view (.walking sc.shared.pool.ring)
        { sc with shared := { sc.shared with pool := sc.shared.pool.walk.2 } }
  | spent {sc : Scene} {view : List Nat} {pool : Pool}
      (hpool : pool = sc.shared.pool ∨
        ∃ number, pool = sc.shared.pool.changeHealth number Health.revive) :
      Goes s r who (.walking view) sc (.stride none) (.walking view)
        { sc with shared := { sc.shared with pool := pool } }
  | stride {sc : Scene} {view : List Nat} {number : Nat} {node : Node} {pool : Pool}
      (hview : number ∈ view) (hnode : sc.shared.pool.node? number = some node)
      (hpool : pool = sc.shared.pool ∨ pool = sc.shared.pool.changeHealth number Health.revive) :
      Goes s r who (.walking view) sc (.stride (some (number, node.url)))
        (.trying view number node.url .undecided)
        { sc with shared := { sc.shared with pool := pool } }
  | ping {sc : Scene} {view : List Nat} {number timeout : Nat} {url : Url} {message : Message}
      (answer : Except LinkFault Reply) (hmessage : pingMessage s url timeout = .ok message) :
      Goes s r who (.trying view number url .undecided) sc (.ping number url message answer)
        (.trying view number url (.ofPing answer)) sc
  | attempt {sc : Scene} {c : Course} {view : List Nat} {number : Nat} {url : Url}
      {message : Message} (answer : Except LinkFault Reply) (hsettings : c.settings = s)
      (hrequest : c.request = r) (hmessage : messageTo c url = .ok message) :
      Goes s r who (.trying view number url .undecided) sc (.attempt number url message answer)
        (.trying view number url (.ofAttempt answer)) sc
  | mark {sc : Scene} {view : List Nat} {number : Nat} {url : Url} {verdict : Verdict}
      {what : Mark} (hcalls : verdict.CallsFor s url sc.moment what) :
      Goes s r who (.trying view number url verdict) sc (.mark number url what) (.walking view)
        { sc with shared := { sc.shared with
            pool := sc.shared.pool.changeHealth number (what.apply s) } }

/-- Nothing is done at a last place. -/
theorem Goes.isLast_eq {s : Settings} {r : Request} {who : Nat} {place place' : Place}
    {sc sc' : Scene} {move : Move} (h : Goes s r who place sc move place' sc') :
    place.isLast = false := by
  cases h with
  | look hplace | clock hplace => exact hplace
  | ask _ hplace | reseed hplace => cases hplace <;> rfl
  | view hplace => rcases hplace with rfl | rfl <;> rfl
  | _ => rfl

end Send

/-! ### Programs that keep to the rules -/

namespace Program

open Send

variable [Url.Domain.Spelling] {α β : Type} {s : Settings} {r : Request} {who : Nat} {begun : Bool}
  {place place' : Send.Place} {sc sc' : Scene}

/-- A program that stands at a place of a request does nothing but what the rules allow, whatever
the others do while it waits, and it ends as it should. What it can say in the end depends on
whether it has begun the first sniff. -/
def Conducts (s : Settings) (r : Request) (who : Nat) (post : α → Bool → Send.Place → Prop) :
    Program α → Bool → Send.Place → Scene → Prop
  | done a, begun, place, _ => post a begun place
  | step op next, begun, place, sc => ∀ sc₁, (op.waits = false → sc₁ = sc) →
      ∀ choice answer sc', choice.who = who → op.take choice sc₁ = some (answer, sc') →
        ∃ move place', Goes s r who place sc₁ move place' sc' ∧
          move.exchange? = op.exchange? answer ∧
          (next answer).Conducts s r who post (move.begunAfter begun) place' sc'

variable {post : α → Bool → Send.Place → Prop} {post' : β → Bool → Send.Place → Prop}

namespace Conducts

/-- Where a program waits, the scene does not matter. -/
theorem of_waits {p : Program α} (h : p.Conducts s r who post begun place sc)
    (hwaits : p.waits = true) : p.Conducts s r who post begun place sc' := by
  cases p with
  | done a => exact h
  | step op next =>
    intro sc₁ _
    refine h sc₁ fun hgoes ↦ ?_
    rw [show op.waits = true from hwaits] at hgoes
    cases hgoes

/-- One program after another. -/
theorem bind {p : Program α} {f : α → Program β} (hp : p.Conducts s r who post begun place sc)
    (hf : ∀ a begun place sc, post a begun place →
      (f a).Conducts s r who post' begun place sc) :
    (p >>= f).Conducts s r who post' begun place sc := by
  induction p generalizing begun place sc with
  | done a => exact hf a begun place sc hp
  | step op next ih =>
    intro sc₁ hsc₁ choice answer sc' hwho htake
    obtain ⟨move, place', hgoes, hexchange, hrest⟩ := hp sc₁ hsc₁ choice answer sc' hwho htake
    exact ⟨move, place', hgoes, hexchange, ih answer hrest⟩

/-- What is enough in the end is enough. -/
theorem mono {p : Program α} {post₁ : α → Bool → Send.Place → Prop}
    (hp : p.Conducts s r who post₁ begun place sc)
    (hpost : ∀ a begun place, post₁ a begun place → post a begun place) :
    p.Conducts s r who post begun place sc := by
  induction p generalizing begun place sc with
  | done a => exact hpost a begun place hp
  | step op next ih =>
    intro sc₁ hsc₁ choice answer sc' hwho htake
    obtain ⟨move, place', hgoes, hexchange, hrest⟩ := hp sc₁ hsc₁ choice answer sc' hwho htake
    exact ⟨move, place', hgoes, hexchange, ih answer hrest⟩

/-! ### Single operations -/

section Operations

variable {move : Move}

/-- The clock is read, and what it shows matters. -/
theorem now_bind {f : Nat → Program β}
    (h : ∀ moment, sc.moment ≤ moment → ∃ move place',
      Goes s r who place sc move place' { sc with moment := moment } ∧ move.exchange? = none ∧
        (f moment).Conducts s r who post' (move.begunAfter begun) place'
          { sc with moment := moment }) :
    (now >>= f).Conducts s r who post' begun place sc := by
  intro sc₁ hsc₁ choice answer sc' _ htake
  obtain rfl := hsc₁ rfl
  simp only [Operation.take, Option.ite_none_right_eq_some, Option.some.injEq] at htake
  obtain ⟨hmoment, rfl, rfl⟩ := htake
  exact h _ hmoment

/-- The clock is read in passing. -/
theorem now_idle {f : Nat → Program β} (hplace : place.isLast = false)
    (hheedless : place.heedsTime = false)
    (h : ∀ moment, sc.moment ≤ moment →
      (f moment).Conducts s r who post' begun place { sc with moment := moment }) :
    (now >>= f).Conducts s r who post' begun place sc :=
  now_bind fun moment hmoment ↦
    ⟨.idle, place, .clock hplace hheedless hmoment, rfl, h moment hmoment⟩

/-- What the requests share is looked at, after which the request may be at another place. -/
theorem look_bind {f : Shared → Program β} (hgoes : Goes s r who place sc .idle place' sc)
    (h : (f sc.shared).Conducts s r who post' begun place' sc) :
    (look >>= f).Conducts s r who post' begun place sc := by
  intro sc₁ hsc₁ choice answer sc' _ htake
  obtain rfl := hsc₁ rfl
  simp only [Operation.take, Option.some.injEq] at htake
  obtain ⟨rfl, rfl⟩ := htake
  exact ⟨.idle, place', hgoes, rfl, h⟩

theorem look_idle {f : Shared → Program β} (hplace : place.isLast = false)
    (h : (f sc.shared).Conducts s r who post' begun place sc) :
    (look >>= f).Conducts s r who post' begun place sc :=
  look_bind (.look hplace) h

/-- What the requests share is changed. -/
theorem change_bind {g : Shared → Shared} {f : Unit → Program β} (hplace : place.isLast = false)
    (hgoes : Goes s r who place sc move place' { sc with shared := g sc.shared })
    (hexchange : move.exchange? = none)
    (h : (f ()).Conducts s r who post' (move.begunAfter begun) place'
      { sc with shared := g sc.shared }) :
    (change g >>= f).Conducts s r who post' begun place sc := by
  refine look_idle (f := fun seen ↦ step (.keep (g seen)) done >>= f) hplace ?_
  intro sc₁ hsc₁ choice answer sc' _ htake
  obtain rfl := hsc₁ rfl
  simp only [Operation.take, Option.some.injEq] at htake
  obtain ⟨rfl, rfl⟩ := htake
  exact ⟨move, place', hgoes, hexchange, h⟩

/-- A message is answered after whatever the others have done meanwhile. -/
theorem call_bind {message : Message} {f : Except LinkFault Reply → Program β}
    (h : ∀ sc answer, ∃ move place', Goes s r who place sc move place' sc ∧
      move.exchange? = some (message, answer) ∧
      (f answer).Conducts s r who post' (move.begunAfter begun) place' sc) :
    (call message >>= f).Conducts s r who post' begun place sc := by
  intro sc₁ _ choice answer sc' _ htake
  simp only [Operation.take, Option.some.injEq] at htake
  obtain ⟨rfl, rfl⟩ := htake
  exact h sc₁ choice.answer

/-- The turn is given to a request after whatever the others have done meanwhile. -/
theorem acquire_bind {f : Unit → Program β}
    (h : ∀ sc, sc.turn = none → ∃ move,
      Goes s r who place sc move place' { sc with turn := some who } ∧ move.exchange? = none ∧
        (f ()).Conducts s r who post' (move.begunAfter begun) place' { sc with turn := some who }) :
    (acquire >>= f).Conducts s r who post' begun place sc := by
  intro sc₁ _ choice answer sc' hwho htake
  simp only [Operation.take] at htake
  split at htake
  · rename_i hturn
    simp only [Option.some.injEq] at htake
    obtain ⟨rfl, rfl⟩ := htake
    obtain ⟨move, hgoes, hexchange, hrest⟩ := h sc₁ hturn
    exact ⟨move, place', hwho ▸ hgoes, hexchange, hwho ▸ hrest⟩
  · cases htake

/-- The turn is given away. -/
theorem release_bind {f : Unit → Program β}
    (hgoes : Goes s r who place sc move place' { sc with turn := none })
    (hexchange : move.exchange? = none)
    (h : (f ()).Conducts s r who post' (move.begunAfter begun) place' { sc with turn := none }) :
    (release >>= f).Conducts s r who post' begun place sc := by
  intro sc₁ hsc₁ choice answer sc' _ htake
  obtain rfl := hsc₁ rfl
  simp only [Operation.take, Option.some.injEq] at htake
  obtain ⟨rfl, rfl⟩ := htake
  exact ⟨move, place', hgoes, hexchange, h⟩

end Operations

/-- A program at the last place of a request has come to its end. -/
theorem exists_done {p : Program α} (h : p.Conducts s r who post begun place sc)
    (hplace : place.isLast = true) : ∃ a, p = .done a := by
  cases p with
  | done a => exact ⟨a, rfl⟩
  | step op next =>
    obtain ⟨sc₁, choice, answer, sc', hsc₁, hwho, htake⟩ := op.exists_take who sc
    obtain ⟨move, place', hgoes, -⟩ := h sc₁ hsc₁ choice answer sc' hwho htake
    rw [hgoes.isLast_eq] at hplace
    cases hplace

/-- A program that has sent a message is where an answer can come. -/
theorem exists_of_call {message : Message} {next : Except LinkFault Reply → Program α}
    (h : Conducts s r who post (.step (.call message) next) begun place sc)
    (answer : Except LinkFault Reply) : ∃ move place' sc',
      Goes s r who place sc move place' sc' ∧ move.exchange? = some (message, answer) := by
  obtain ⟨move, place', hgoes, hexchange, -⟩ :=
    h sc nofun { who := who, answer := answer } answer sc rfl rfl
  exact ⟨move, place', sc, hgoes, hexchange⟩

end Conducts

end Program

end SearchClient

import Tgvisd.Lib.Interaction

/-!
# Programs in a world

An environment that has a state of its own, the world: it says which answers a request may get
and how the world changes with them. A program's runs in a world are those whose answers the
environment allows. `Ensures` is the weakest precondition of a program for what holds in every
world that is visited on the way and for what holds at the end; its rules follow the structure of
the program, and it is equivalent to the statement about all runs.
-/

namespace Tgvisd

universe u v w x y

abbrev Environment {Request : Type u} (Answer : Request → Type v) (World : Type y) :=
  World → (request : Request) → Answer request → World → Prop

/-- The exchanges lead from one world to another. -/
inductive Follows {Request : Type u} {Answer : Request → Type v} {World : Type y}
    (environment : Environment Answer World) : World → List (Sigma Answer) → World → Prop
  | nil (world : World) : Follows environment world [] world
  | cons {world next last : World} {request : Request} {answer : Answer request}
      {exchanges : List (Sigma Answer)} (hanswer : environment world request answer next)
      (hrest : Follows environment next exchanges last) :
      Follows environment world (⟨request, answer⟩ :: exchanges) last

section Follows

variable {Request : Type u} {Answer : Request → Type v} {World : Type y}
  {environment : Environment Answer World} {world last : World} {front back : List (Sigma Answer)}

theorem follows_nil_iff : Follows environment world [] last ↔ last = world := by
  constructor
  · rintro ⟨⟩
    rfl
  · rintro rfl
    exact .nil last

theorem follows_cons_iff {request : Request} {answer : Answer request} :
    Follows environment world (⟨request, answer⟩ :: back) last ↔
      ∃ next, environment world request answer next ∧ Follows environment next back last := by
  constructor
  · rintro (_ | ⟨hanswer, hrest⟩)
    exact ⟨_, hanswer, hrest⟩
  · rintro ⟨next, hanswer, hrest⟩
    exact .cons hanswer hrest

theorem follows_append_iff :
    Follows environment world (front ++ back) last ↔
      ∃ middle, Follows environment world front middle ∧
        Follows environment middle back last := by
  induction front generalizing world with
  | nil => simp [follows_nil_iff]
  | cons exchange front ih =>
    obtain ⟨request, answer⟩ := exchange
    simp only [List.cons_append, follows_cons_iff, ih]
    constructor
    · rintro ⟨next, hanswer, middle, hfront, hback⟩
      exact ⟨middle, ⟨next, hanswer, hfront⟩, hback⟩
    · rintro ⟨middle, ⟨next, hanswer, hfront⟩, hback⟩
      exact ⟨next, hanswer, middle, hfront, hback⟩

end Follows

namespace Interaction

variable {Request : Type u} {Answer : Request → Type v} {Halt : Type w} {Value Next : Type x}
  {World : Type y}

/-- The worlds that a program may be stopped in, from outside and at any time. -/
inductive Visits (environment : Environment Answer World) :
    Interaction Answer Halt Value → World → World → Prop
  | here (program : Interaction Answer Halt Value) (world : World) :
      Visits environment program world world
  | ask {request : Request} {resume : Answer request → Interaction Answer Halt Value}
      {world next last : World} {answer : Answer request}
      (hanswer : environment world request answer next)
      (hvisits : Visits environment (resume answer) next last) :
      Visits environment (ask request resume) world last

inductive Ends (environment : Environment Answer World) :
    Interaction Answer Halt Value → World → Except Halt Value → World → Prop
  | done (value : Value) (world : World) : Ends environment (done value) world (.ok value) world
  | halt (reason : Halt) (world : World) :
      Ends environment (halt reason) world (.error reason) world
  | ask {request : Request} {resume : Answer request → Interaction Answer Halt Value}
      {world next last : World} {answer : Answer request} {outcome : Except Halt Value}
      (hanswer : environment world request answer next)
      (hends : Ends environment (resume answer) next outcome last) :
      Ends environment (ask request resume) world outcome last

/-- Every world that is reached by an answer has the property `always`, and every end the
property `post`. -/
def Ensures (environment : Environment Answer World) (always : World → Prop)
    (post : Except Halt Value → World → Prop) : Interaction Answer Halt Value → World → Prop
  | done value, world => post (.ok value) world
  | halt reason, world => post (.error reason) world
  | ask request resume, world => ∀ answer next, environment world request answer next →
      always next ∧ Ensures environment always post (resume answer) next

variable {environment : Environment Answer World} {always other : World → Prop}
  {post stronger : Except Halt Value → World → Prop} {program : Interaction Answer Halt Value}
  {world last : World} {outcome : Except Halt Value}

theorem Ends.visits (h : Ends environment program world outcome last) :
    Visits environment program world last := by
  induction h with
  | done value world => exact .here _ world
  | halt reason world => exact .here _ world
  | ask hanswer _ ih => exact .ask hanswer ih

/-- A run whose answers the environment gives. -/
theorem ends_iff : Ends environment program world outcome last ↔
    ∃ exchanges, program.Runs exchanges outcome ∧
      Follows environment world exchanges last := by
  constructor
  · intro h
    induction h with
    | done value world => exact ⟨[], .done value, .nil world⟩
    | halt reason world => exact ⟨[], .halt reason, .nil world⟩
    | ask hanswer _ ih =>
      obtain ⟨exchanges, hruns, hfollows⟩ := ih
      exact ⟨_ :: exchanges, .ask _ hruns, .cons hanswer hfollows⟩
  · rintro ⟨exchanges, hruns, hfollows⟩
    induction hruns generalizing world with
    | done value =>
      obtain rfl := follows_nil_iff.mp hfollows
      exact .done value last
    | halt reason =>
      obtain rfl := follows_nil_iff.mp hfollows
      exact .halt reason last
    | ask answer _ ih =>
      obtain ⟨next, hanswer, hrest⟩ := follows_cons_iff.mp hfollows
      exact .ask hanswer (ih hrest)

theorem Ensures.visits (h : Ensures environment always post program world)
    (hvisits : Visits environment program world last) : last = world ∨ always last := by
  induction hvisits with
  | here program world => exact .inl rfl
  | ask hanswer _ ih =>
    obtain ⟨hnext, hresume⟩ := h _ _ hanswer
    apply Or.inr
    obtain rfl | hlast := ih hresume
    · exact hnext
    · exact hlast

theorem Ensures.ends (h : Ensures environment always post program world)
    (hends : Ends environment program world outcome last) : post outcome last := by
  induction hends with
  | done value world => exact h
  | halt reason world => exact h
  | ask hanswer _ ih => exact ih (h _ _ hanswer).2

/-- Nothing is lost by arguing with the precondition instead of the runs. -/
theorem ensures_of_forall (hvisits : ∀ last, Visits environment program world last → always last)
    (hends : ∀ outcome last, Ends environment program world outcome last → post outcome last) :
    Ensures environment always post program world := by
  induction program generalizing world with
  | done value => exact hends _ _ (.done value world)
  | halt reason => exact hends _ _ (.halt reason world)
  | ask request resume ih =>
    intro answer next hanswer
    refine ⟨hvisits next (.ask hanswer (.here _ next)), ?_⟩
    apply ih answer
    · exact fun last hlast ↦ hvisits last (.ask hanswer hlast)
    · exact fun outcome last hlast ↦ hends outcome last (.ask hanswer hlast)

theorem Ensures.mono (h : Ensures environment other stronger program world)
    (halways : ∀ next, other next → always next)
    (hpost : ∀ outcome next, stronger outcome next → post outcome next) :
    Ensures environment always post program world := by
  induction program generalizing world with
  | done value => exact hpost _ _ h
  | halt reason => exact hpost _ _ h
  | ask request resume ih =>
    intro answer next hanswer
    obtain ⟨hnext, hresume⟩ := h answer next hanswer
    exact ⟨halways next hnext, ih answer hresume⟩

theorem ensures_bind_iff {next : Value → Interaction Answer Halt Next}
    {post : Except Halt Next → World → Prop} :
    Ensures environment always post (program >>= next) world ↔
      Ensures environment always (fun outcome world ↦
        match outcome with
        | .ok value => Ensures environment always post (next value) world
        | .error reason => post (.error reason) world) program world := by
  induction program generalizing world with
  | done value => rfl
  | halt reason => rfl
  | ask request resume ih =>
    apply forall_congr'
    intro answer
    apply forall_congr'
    intro after
    apply imp_congr_right
    intro _
    exact and_congr_right fun _ ↦ ih answer

/-! ## Worlds that compute -/

/-- The run in a world that knows its answers; there is none if it has no answer. -/
def runIn (respond : World → (request : Request) → Option (Answer request × World)) :
    Interaction Answer Halt Value → World → Option (Except Halt Value × World)
  | done value, world => some (.ok value, world)
  | halt reason, world => some (.error reason, world)
  | ask request resume, world =>
    (respond world request).bind fun response ↦ runIn respond (resume response.1) response.2

theorem ends_of_runIn {respond : World → (request : Request) → Option (Answer request × World)}
    (hrespond : ∀ world request response, respond world request = some response →
      environment world request response.1 response.2)
    (h : program.runIn respond world = some (outcome, last)) :
    Ends environment program world outcome last := by
  induction program generalizing world with
  | done value =>
    obtain ⟨rfl, rfl⟩ := Prod.mk.inj (Option.some.inj h)
    exact .done value world
  | halt reason =>
    obtain ⟨rfl, rfl⟩ := Prod.mk.inj (Option.some.inj h)
    exact .halt reason world
  | ask request resume ih =>
    obtain ⟨response, hresponse, hrest⟩ := Option.bind_eq_some_iff.mp h
    exact .ask (hrespond world request response hresponse) (ih _ hrest)

/-- The run with its exchanges. -/
def traceIn (respond : World → (request : Request) → Option (Answer request × World)) :
    Interaction Answer Halt Value → World →
      Option (List (Sigma Answer) × Except Halt Value × World)
  | done value, world => some ([], .ok value, world)
  | halt reason, world => some ([], .error reason, world)
  | ask request resume, world =>
    (respond world request).bind fun response ↦
      (traceIn respond (resume response.1) response.2).map fun trace ↦
        (⟨request, response.1⟩ :: trace.1, trace.2)

theorem runs_of_traceIn
    {respond : World → (request : Request) → Option (Answer request × World)}
    (hrespond : ∀ world request response, respond world request = some response →
      environment world request response.1 response.2) {exchanges : List (Sigma Answer)}
    (h : program.traceIn respond world = some (exchanges, outcome, last)) :
    program.Runs exchanges outcome ∧ Follows environment world exchanges last := by
  induction program generalizing world exchanges with
  | done value =>
    obtain ⟨rfl, rfl, rfl⟩ : [] = exchanges ∧ .ok value = outcome ∧ world = last := by
      simpa [traceIn] using h
    exact ⟨.done value, .nil world⟩
  | halt reason =>
    obtain ⟨rfl, rfl, rfl⟩ : [] = exchanges ∧ .error reason = outcome ∧ world = last := by
      simpa [traceIn] using h
    exact ⟨.halt reason, .nil world⟩
  | ask request resume ih =>
    obtain ⟨response, hresponse, hrest⟩ := Option.bind_eq_some_iff.mp h
    obtain ⟨⟨rest, final⟩, htrace, hcons⟩ := Option.map_eq_some_iff.mp hrest
    obtain ⟨rfl, rfl⟩ := Prod.mk.inj hcons
    obtain ⟨hruns, hfollows⟩ := ih _ htrace
    exact ⟨.ask _ hruns, .cons (hrespond world request response hresponse) hfollows⟩

end Interaction

/-! ## Procedures -/

namespace Procedure

variable {Request : Type u} {Answer : Request → Type v} {Halt : Type w}
  {Error State Value Next : Type x} {World : Type y}

def Ending.ofExcept : Except Halt (Except Error Value × State) → Ending Halt Error State Value
  | .ok (.ok value, state) => .returned value state
  | .ok (.error error, state) => .raised error state
  | .error reason => .halted reason

def Visits (environment : Environment Answer World)
    (procedure : Procedure Answer Halt Error State Value) (state : State) (world last : World) :
    Prop :=
  (procedure.runFrom state).Visits environment world last

def Ends (environment : Environment Answer World)
    (procedure : Procedure Answer Halt Error State Value) (state : State) (world : World)
    (ending : Ending Halt Error State Value) (last : World) : Prop :=
  (procedure.runFrom state).Ends environment world ending.toExcept last

/-- The ending of the run in a world that knows its answers. -/
def runIn (respond : World → (request : Request) → Option (Answer request × World))
    (procedure : Procedure Answer Halt Error State Value) (state : State) (world : World) :
    Option (Ending Halt Error State Value × World) :=
  ((procedure.runFrom state).runIn respond world).map fun last ↦
    (Ending.ofExcept last.1, last.2)

/-- The value, the state and the world that the run leaves in such a world, if it returns. -/
def returnIn (respond : World → (request : Request) → Option (Answer request × World))
    (procedure : Procedure Answer Halt Error State Value) (state : State) (world : World) :
    Option (Value × State × World) :=
  (procedure.runIn respond state world).bind fun
    | (.returned value after, last) => some (value, after, last)
    | _ => none

def Ensures (environment : Environment Answer World) (always : World → Prop)
    (procedure : Procedure Answer Halt Error State Value) (state : State)
    (post : Ending Halt Error State Value → World → Prop) (world : World) : Prop :=
  (procedure.runFrom state).Ensures environment always
    (fun outcome world ↦ post (Ending.ofExcept outcome) world) world

variable {environment : Environment Answer World} {always other : World → Prop}
  {procedure : Procedure Answer Halt Error State Value} {state : State} {world last : World}
  {post stronger : Ending Halt Error State Value → World → Prop}
  {ending : Ending Halt Error State Value}

theorem Ending.ofExcept_toExcept (ending : Ending Halt Error State Value) :
    Ending.ofExcept ending.toExcept = ending := by
  cases ending <;> rfl

theorem Ending.toExcept_ofExcept (outcome : Except Halt (Except Error Value × State)) :
    (Ending.ofExcept outcome).toExcept = outcome := by
  obtain reason | ⟨error | value, state⟩ := outcome <;> rfl

theorem ends_of_runIn {respond : World → (request : Request) → Option (Answer request × World)}
    (hrespond : ∀ world request response, respond world request = some response →
      environment world request response.1 response.2)
    (h : procedure.runIn respond state world = some (ending, last)) :
    procedure.Ends environment state world ending last := by
  obtain ⟨⟨outcome, final⟩, hrun, hlast⟩ := Option.map_eq_some_iff.mp h
  obtain ⟨rfl, rfl⟩ := Prod.mk.inj hlast
  unfold Ends
  rw [Ending.toExcept_ofExcept]
  exact Interaction.ends_of_runIn hrespond hrun

theorem ends_of_returnIn
    {respond : World → (request : Request) → Option (Answer request × World)}
    (hrespond : ∀ world request response, respond world request = some response →
      environment world request response.1 response.2) {value : Value} {after : State}
    (h : procedure.returnIn respond state world = some (value, after, last)) :
    procedure.Ends environment state world (.returned value after) last := by
  obtain ⟨⟨ending, final⟩, hrun, hlast⟩ := Option.bind_eq_some_iff.mp h
  cases ending with
  | returned given kept =>
    obtain ⟨rfl, rfl, rfl⟩ : given = value ∧ kept = after ∧ final = last := by simpa using hlast
    exact ends_of_runIn hrespond hrun
  | raised error after => simp at hlast
  | halted reason => simp at hlast

/-- The run in such a world with its exchanges. -/
def traceIn (respond : World → (request : Request) → Option (Answer request × World))
    (procedure : Procedure Answer Halt Error State Value) (state : State) (world : World) :
    Option (List (Sigma Answer) × Ending Halt Error State Value × World) :=
  ((procedure.runFrom state).traceIn respond world).map fun trace ↦
    (trace.1, Ending.ofExcept trace.2.1, trace.2.2)

theorem runs_of_traceIn
    {respond : World → (request : Request) → Option (Answer request × World)}
    (hrespond : ∀ world request response, respond world request = some response →
      environment world request response.1 response.2) {exchanges : List (Sigma Answer)}
    (h : procedure.traceIn respond state world = some (exchanges, ending, last)) :
    procedure.Runs state exchanges ending ∧ Follows environment world exchanges last := by
  obtain ⟨⟨given, outcome, final⟩, htrace, hlast⟩ := Option.map_eq_some_iff.mp h
  obtain ⟨rfl, rfl, rfl⟩ : given = exchanges ∧ Ending.ofExcept outcome = ending ∧ final = last := by
    simpa using hlast
  unfold Runs
  rw [Ending.toExcept_ofExcept]
  exact Interaction.runs_of_traceIn hrespond htrace

theorem Ends.visits (h : procedure.Ends environment state world ending last) :
    procedure.Visits environment state world last :=
  Interaction.Ends.visits h

theorem Ensures.visits (h : procedure.Ensures environment always state post world)
    (hvisits : procedure.Visits environment state world last) : last = world ∨ always last :=
  Interaction.Ensures.visits h hvisits

theorem Runs.ends {exchanges : List (Sigma Answer)}
    (h : procedure.Runs state exchanges ending)
    (hfollows : Follows environment world exchanges last) :
    procedure.Ends environment state world ending last :=
  Interaction.ends_iff.mpr ⟨exchanges, h, hfollows⟩

theorem Ensures.ends (h : procedure.Ensures environment always state post world)
    (hends : procedure.Ends environment state world ending last) : post ending last := by
  have hlast := Interaction.Ensures.ends h hends
  rwa [Ending.ofExcept_toExcept] at hlast

theorem Ensures.mono (h : procedure.Ensures environment other state stronger world)
    (halways : ∀ next, other next → always next)
    (hpost : ∀ ending next, stronger ending next → post ending next) :
    procedure.Ensures environment always state post world :=
  Interaction.Ensures.mono h halways fun outcome next ↦ hpost (Ending.ofExcept outcome) next

theorem ensures_bind_iff {next : Value → Procedure Answer Halt Error State Next}
    {post : Ending Halt Error State Next → World → Prop} :
    (procedure >>= next).Ensures environment always state post world ↔
      procedure.Ensures environment always state (fun ending world ↦
        match ending with
        | .returned value state => (next value).Ensures environment always state post world
        | .raised error state => post (.raised error state) world
        | .halted reason => post (.halted reason) world) world := by
  unfold Ensures
  rw [runFrom_bind, Interaction.ensures_bind_iff]
  constructor <;> intro h <;> apply h.mono (fun _ hnext ↦ hnext)
  · rintro (reason | ⟨error | value, after⟩) last hlast <;> exact hlast
  · rintro (reason | ⟨error | value, after⟩) last hlast <;> exact hlast

theorem ensures_tryCatch_iff {handler : Error → Procedure Answer Halt Error State Value} :
    (tryCatch procedure handler).Ensures environment always state post world ↔
      procedure.Ensures environment always state (fun ending world ↦
        match ending with
        | .returned value state => post (.returned value state) world
        | .raised error state => (handler error).Ensures environment always state post world
        | .halted reason => post (.halted reason) world) world := by
  unfold Ensures
  rw [runFrom_tryCatch, Interaction.ensures_bind_iff]
  constructor <;> intro h <;> apply h.mono (fun _ hnext ↦ hnext)
  · rintro (reason | ⟨error | value, after⟩) last hlast <;> exact hlast
  · rintro (reason | ⟨error | value, after⟩) last hlast <;> exact hlast

end Procedure

end Tgvisd

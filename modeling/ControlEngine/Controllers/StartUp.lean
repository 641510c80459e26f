import ControlEngine.Controllers.Logging
import ControlEngine.Static.Attachment

/-!
# Starting the engine

`main` loads the configuration, fills the network interface from it, and constructs the
controllers kind by kind, as many of each as their `Thread-Count` says.  A constructor reads
its section and fetches the index of a description.  What the configuration library returns
for the keys of a section, or the text of the exception that it throws, is given.

Nothing in `main` catches: what leaves a constructor terminates the process.  Of the five,
the constructor of `LoggingController` alone goes on when its section cannot be read.  The
text that a failed fetch throws is caught nowhere.  So whether the engine starts is decided
by the counts, by the texts of the descriptions, and by the sections that are read.
-/

namespace ControlEngine

/-! ## The configuration -/

/-- What all controllers read. -/
structure ThreadSettings where
  cpuUsage : ℤ
  autoRestartFlag : Bool

/-- What `NetworkConnectionController` reads. -/
structure ConnectionSettings extends ThreadSettings where
  autoReconnectFlag : Bool

/-- What `LoggingController` reads. -/
structure LoggingSettings extends ThreadSettings where
  toggles : String → String → Bool
  throughputInterval : ℚ
  fileLocation : List Byte

/-- The section of a controller: the two keys that `main` reads, and what the constructor
reads, or the text of the exception that this throws. -/
structure ConfigSection (α : Type) where
  enabled : Bool
  threadCount : ℤ
  settings : Except String α

/-- An entry of `NetworkInterface`, and its text. -/
structure InterfaceEntry where
  settings : Except String NetworkSettings
  dump : List Byte

/-- `Config::settings`. -/
structure EngineConfig where
  networkInterface : List InterfaceEntry
  loggingController : ConfigSection LoggingSettings
  networkConnectionController : ConfigSection ConnectionSettings
  networkWriterController : ConfigSection ThreadSettings
  networkReaderController : ConfigSection ThreadSettings
  commandExecuterController : ConfigSection ThreadSettings

/-! ## The engine under construction -/

/-- A controller in the pool of the orchestrator, with what it has read and the index that it
has fetched; `none` is what a caught exception leaves uninitialised. -/
inductive PooledController
  | logging (settings : Option LoggingSettings) (networkInterfaceIndex : Option ℤ)
  | connection (settings : ConnectionSettings) (networkInterfaceIndex : ℤ)
  | writer (settings : ThreadSettings) (networkInterfaceIndex : ℤ)
  | reader (settings : ThreadSettings) (networkInterfaceIndex : ℤ)
  | executer (settings : ThreadSettings) (networkInterfaceIndex : ℤ)

/-- What `main` has built so far, with the records in the log queue. -/
structure Engine where
  network : NetworkInterface
  logged : List Holder
  pool : List PooledController

/-- What a part of `main` comes to: it blocks, it throws, or it goes on. -/
abbrev Construction := Option (Except (Thrown × Engine) Engine)

namespace Engine

/-- A record of a class without a description. -/
def log (e : Engine) (tag : String) (severity : Severity) (value : List Byte) : Engine :=
  { e with logged := e.logged ++ [⟨textBytes tag, value, severity, []⟩] }

/-- `pushControllerPool`. -/
def pushControllerPool (e : Engine) (controller : PooledController) : Engine :=
  { e with pool := e.pool ++ [controller] }

/-- The loop of `iniNetworkInterface`, from an index on.  The entries before one that cannot
be read stay in the list. -/
def iniNetworkInterfaceFrom (e : Engine) (i : ℕ) : List InterfaceEntry → ℤ × Engine
  | [] => (0, e)
  | entry :: entries =>
      match entry.settings with
      | .error what => (1, e.log "NetworkInterface" .Error (textBytes what))
      | .ok settings =>
          let e := e.log "NetworkInterface" .Info (textBytes "Network Interface \x7b " ++
            textBytes (toString i) ++ textBytes " \x7d: " ++ entry.dump)
          iniNetworkInterfaceFrom
            { e with network.networkList := e.network.networkList ++
                (NetworkInterface.iniNetworkInterface [settings]).networkList }
            (i + 1) entries

/-- `iniNetworkInterface`. -/
def iniNetworkInterface (entries : List InterfaceEntry) : ℤ × Engine :=
  let e : Engine := ⟨NetworkInterface.iniNetworkInterface [], [], []⟩
  (e.log "NetworkInterface" .Info (textBytes "Network Interface Size: \x7b " ++
    textBytes (toString entries.length) ++ textBytes " \x7d")).iniNetworkInterfaceFrom 0 entries

/-- What follows the fetch in a constructor, and the push to the pool. -/
def fetched (e : Engine) (tag : String) (make : ℤ → PooledController) :
    Except Thrown ℤ × NetworkInterface → Except (Thrown × Engine) Engine
  | (.error thrown, network) => .error (thrown, { e with network })
  | (.ok index, network) =>
      .ok ((({ e with network }).log tag .Info (textBytes "Fetched Network Description: \x7b " ++
        textBytes (toString index) ++ textBytes " \x7d")).pushControllerPool (make index))

/-- The constructor of a controller whose section has been read. -/
def fetchInto (e : Engine) (tag : String) (call : FetchCall) (make : ℤ → PooledController) :
    Construction :=
  (call.run e.network).map
    ((e.log tag .Info (textBytes "Fetching Network Description...")).fetched tag make)

/-- The constructors that throw again what reading the section throws: `rethrown` is what
`throw e` makes of its text. -/
def construct {α : Type} (tag : String) (rethrown : String → String) (call : FetchCall)
    (make : α → ℤ → PooledController) (settings : Except String α) (e : Engine) : Construction :=
  match settings with
  | .error what => some (.error (.exception (rethrown what), e.log tag .Error (textBytes what)))
  | .ok settings => e.fetchInto tag call (make settings)

/-- It catches a `std::exception`, and throws a copy of that part only. -/
def NetworkConnectionController : Except String ConnectionSettings → Engine → Construction :=
  construct "NetworkConnectionController" (fun _ => "std::exception") (.controller .connection)
    .connection

def NetworkWriterController : Except String ThreadSettings → Engine → Construction :=
  construct "NetworkWriterController" id (.controller .writer) .writer

def NetworkReaderController : Except String ThreadSettings → Engine → Construction :=
  construct "NetworkReaderController" id (.controller .reader) .reader

def CommandExecuterController : Except String ThreadSettings → Engine → Construction :=
  construct "CommandExecuterController" id (.description (textBytes "Commands")) .executer

/-- The constructor of `LoggingController`, which writes what reading the section throws to
the screen and goes on. -/
def LoggingController (settings : Except String LoggingSettings) (e : Engine) : Construction :=
  match settings with
  | .error _ => some (.ok (e.pushControllerPool (.logging none none)))
  | .ok settings =>
      e.fetchInto "LoggingController" (.description (textBytes "Logs")) fun index =>
        .logging (some settings) (some index)

/-- What follows, if what comes before goes on. -/
def andThen (first : Construction) (next : Engine → Construction) : Construction :=
  match first with
  | some (.ok e) => next e
  | stopped => stopped

/-- A loop of `main`. -/
def constructTimes (construct : Engine → Construction) : ℕ → Engine → Construction
  | 0, e => some (.ok e)
  | n + 1, e => andThen (construct e) (constructTimes construct n)

/-- One kind of controllers. -/
def constructSection {α : Type} (construct : Except String α → Engine → Construction)
    (keys : ConfigSection α) (e : Engine) : Construction :=
  if keys.enabled then constructTimes (construct keys.settings) keys.threadCount.toNat e
  else some (.ok e)

end Engine

/-- What becomes of `main`: it returns, an exception ends the process, or the orchestrator
is started with a pool. -/
inductive StartUp
  | returns (code : ℤ)
  | terminates (thrown : Thrown)
  | runs (e : Engine)

/-- `main` behind the command line, for what `config.load` has read. -/
def main (config : Option EngineConfig) : Option StartUp :=
  match config with
  | none => some (.returns 1)
  | some config =>
      -- the result of `iniNetworkInterface` is not looked at
      let e := (Engine.iniNetworkInterface config.networkInterface).2
      let built :=
        Engine.andThen (Engine.constructSection Engine.LoggingController
          config.loggingController e) fun e =>
        Engine.andThen (Engine.constructSection Engine.NetworkConnectionController
          config.networkConnectionController e) fun e =>
        Engine.andThen (Engine.constructSection Engine.NetworkWriterController
          config.networkWriterController e) fun e =>
        Engine.andThen (Engine.constructSection Engine.NetworkReaderController
          config.networkReaderController e) fun e =>
        Engine.constructSection Engine.CommandExecuterController
          config.commandExecuterController e
      built.map fun
        | .error (thrown, _) => .terminates thrown
        | .ok e => .runs e

/-! ## The parts of `main` -/

/-- The entries of the interface up to the first that cannot be read. -/
def readableEntries : List InterfaceEntry → List NetworkSettings
  | [] => []
  | entry :: entries =>
      match entry.settings with
      | .error _ => []
      | .ok settings => settings :: readableEntries entries

/-- A part of `main` throws. -/
def Construction.Fails (c : Construction) : Prop := ∃ thrown e, c = some (.error (thrown, e))

/-- A part of `main` goes on under a condition, with an engine of which something holds, and
throws otherwise. -/
structure Construction.Decides (c : Construction) (condition : Prop) (result : Engine → Prop) :
    Prop where
  goesOn : condition → ∃ e, c = some (.ok e) ∧ result e
  fails : ¬ condition → c.Fails

variable {first : Construction} {next : Engine → Construction} {condition condition' : Prop}
variable {result result' : Engine → Prop}

theorem Construction.Decides.andThen (hfirst : first.Decides condition result)
    (hnext : ∀ e, result e → (next e).Decides condition' result') :
    (Engine.andThen first next).Decides (condition ∧ condition') result' where
  goesOn := by
    rintro ⟨hcondition, hcondition'⟩
    obtain ⟨e, rfl, he⟩ := hfirst.goesOn hcondition
    exact (hnext e he).goesOn hcondition'
  fails := by
    intro hnot
    by_cases hcondition : condition
    · obtain ⟨e, rfl, he⟩ := hfirst.goesOn hcondition
      exact (hnext e he).fails fun hcondition' => hnot ⟨hcondition, hcondition'⟩
    · obtain ⟨thrown, e, rfl⟩ := hfirst.fails hcondition
      exact ⟨thrown, e, rfl⟩

theorem Construction.Decides.congr (h : first.Decides condition result)
    (hiff : condition' ↔ condition) (hresult : ∀ e, result e → result' e) :
    first.Decides condition' result' where
  goesOn hcondition := by
    obtain ⟨e, he, hholds⟩ := h.goesOn (hiff.mp hcondition)
    exact ⟨e, he, hresult e hholds⟩
  fails hnot := h.fails fun hcondition => hnot (hiff.mpr hcondition)

/-- The mutex is free, each kind has taken the first descriptions, as many as it has called
for, and the texts are these. -/
structure Engine.Ready (e : Engine) (taken : ControllerKind → ℕ)
    (descriptions : List (List Byte)) : Prop where
  unlocked : e.network.getDescriptionMutex = false
  taken : ∀ kind : ControllerKind, TakenBelow kind.attached e.network.networkList (taken kind)
  descriptions : e.network.networkList.map NetworkDescription.description = descriptions

namespace Engine

variable {e : Engine} {taken : ControllerKind → ℕ} {descriptions : List (List Byte)}
variable {kind : ControllerKind} {tag : String} {α : Type}

theorem Ready.length_eq (h : e.Ready taken descriptions) :
    e.network.networkList.length = descriptions.length := by
  rw [← h.descriptions, List.length_map]

theorem description_attach (call : FetchCall) (d : NetworkDescription) :
    (call.attach d).description = d.description := by
  cases call with
  | controller kind => cases kind <;> rfl
  | description desc => rfl

theorem map_description_modify (call : FetchCall) (i : ℕ) (list : List NetworkDescription) :
    (list.modify i call.attach).map NetworkDescription.description =
      list.map NetworkDescription.description := by
  apply List.ext_getElem?
  intro j
  rw [List.getElem?_map, List.getElem?_modify, List.getElem?_map]
  cases list[j]? with
  | none => rfl
  | some d =>
      split
      · exact congrArg some (description_attach call d)
      · rfl

variable {call : FetchCall} {network : NetworkInterface}

theorem fetchInto_returns {index : ℤ} (tag : String) (make : ℤ → PooledController)
    (hrun : call.run e.network = some (.ok index, network)) :
    ∃ e', e.fetchInto tag call make = some (.ok e') ∧ e'.pool = e.pool ++ [make index] ∧
      e'.network = network := by
  rw [fetchInto, hrun]
  exact ⟨_, rfl, rfl, rfl⟩

theorem fetchInto_throws {thrown : Thrown} (tag : String) (make : ℤ → PooledController)
    (hrun : call.run e.network = some (.error thrown, network)) :
    (e.fetchInto tag call make).Fails := by
  rw [fetchInto, hrun]
  exact ⟨_, _, rfl⟩

theorem run_eq_error {wanted : NetworkDescription → Bool} (h : e.Ready taken descriptions)
    (hrun : call.run e.network = e.network.fetch wanted call.attach)
    (hfind : e.network.networkList.findIdx? wanted = none) :
    call.run e.network = some (.error (.literal NetworkInterface.FATAL_NETWORK_DESCRIPTION_FETCH),
      { e.network with getDescriptionMutex := true }) := by
  rw [hrun, NetworkInterface.fetch, h.unlocked, hfind]
  rfl

/-- A call of a kind takes the next description, if there is one. -/
theorem Ready.fetchInto_controller (h : e.Ready taken descriptions) (tag : String)
    (make : ℤ → PooledController) :
    (e.fetchInto tag (.controller kind) make).Decides (taken kind < descriptions.length) fun e' =>
      e'.pool = e.pool ++ [make (NetworkInterface.returnedIndex (taken kind))] ∧
        e'.Ready (Function.update taken kind (taken kind + 1)) descriptions where
  goesOn := by
    intro hfree
    have hfind := (h.taken kind).findIdx? (by rwa [h.length_eq])
    obtain ⟨e', he', hpool, hnetwork⟩ := fetchInto_returns tag make
      ((FetchCall.run_controller _ kind).trans (NetworkInterface.fetch_eq h.unlocked hfind))
    refine ⟨e', he', hpool, ?_, ?_, ?_⟩
    · rw [hnetwork]
      exact h.unlocked
    · intro kind'
      rw [hnetwork]
      by_cases hkind : kind' = kind
      · subst hkind
        rw [Function.update_self]
        apply (h.taken kind').modify
        intro d
        simp [FetchCall.attached_attach]
      · rw [Function.update_of_ne hkind]
        apply (h.taken kind').modify_of_eq
        intro d
        simp [FetchCall.attached_attach, Ne.symm hkind]
    · rw [hnetwork, map_description_modify]
      exact h.descriptions
  fails := by
    intro hnone
    have hfind := (h.taken kind).findIdx?_eq_none (by rw [h.length_eq]; omega)
    exact fetchInto_throws tag make (run_eq_error h (FetchCall.run_controller _ kind) hfind)

/-- A call that looks for a text returns the same index every time. -/
theorem Ready.fetchInto_description (h : e.Ready taken descriptions) (tag : String)
    (desc : List Byte) (make : ℤ → PooledController) :
    (e.fetchInto tag (.description desc) make).Decides (desc ∈ descriptions) fun e' =>
      e'.pool = e.pool ++
          [make (NetworkInterface.returnedIndex (descriptions.findIdx (· = desc)))] ∧
        e'.Ready taken descriptions := by
  have hsame : e.network.networkList.findIdx? (fun d => d.description = desc) =
      descriptions.findIdx? (· = desc) := by
    rw [← h.descriptions, List.findIdx?_map]
    rfl
  constructor
  · intro hmem
    have hfind : descriptions.findIdx? (· = desc) = some (descriptions.findIdx (· = desc)) := by
      rw [List.findIdx?_eq_some_iff_findIdx_eq]
      exact ⟨List.findIdx_lt_length_of_exists ⟨desc, hmem, by simp⟩, rfl⟩
    have hrun : (FetchCall.description desc).run e.network =
        some (.ok (NetworkInterface.returnedIndex (descriptions.findIdx (· = desc))),
          { e.network with
            networkList := e.network.networkList.modify (descriptions.findIdx (· = desc))
              (FetchCall.description desc).attach }) :=
      NetworkInterface.fetch_eq h.unlocked (hsame.trans hfind)
    obtain ⟨e', he', hpool, hnetwork⟩ := fetchInto_returns tag make hrun
    refine ⟨e', he', hpool, ?_, ?_, ?_⟩
    · rw [hnetwork]
      exact h.unlocked
    · intro kind
      rw [hnetwork]
      apply (h.taken kind).modify_of_eq
      intro d
      cases kind <;> rfl
    · rw [hnetwork]
      exact (map_description_modify (.description desc) _ _).trans h.descriptions
  · intro hnone
    apply fetchInto_throws tag make (run_eq_error h rfl _)
    rw [hsame, List.findIdx?_eq_none_iff]
    intro text htext
    apply decide_eq_false
    rintro rfl
    exact hnone htext

/-! ## The loops -/

/-- `n` controllers of a kind take the next `n` descriptions, if there are as many. -/
theorem Ready.constructTimes_controller (h : e.Ready taken descriptions) (kind : ControllerKind)
    (tag : String) (make : ℤ → PooledController) (n : ℕ) :
    (constructTimes (fun e => e.fetchInto tag (.controller kind) make) n e).Decides
      (n = 0 ∨ taken kind + n ≤ descriptions.length) fun e' =>
        e'.pool = e.pool ++ (List.range n).map
          (fun i => make (NetworkInterface.returnedIndex (taken kind + i))) ∧
        e'.Ready (Function.update taken kind (taken kind + n)) descriptions := by
  induction n generalizing e taken with
  | zero =>
      constructor
      · intro _
        exact ⟨e, rfl, (List.append_nil _).symm, by simpa using h⟩
      · intro hnot
        exact absurd (Or.inl rfl) hnot
  | succ n ih =>
      have hrest : ∀ e', (e'.pool = e.pool ++
            [make (NetworkInterface.returnedIndex (taken kind))] ∧
            e'.Ready (Function.update taken kind (taken kind + 1)) descriptions) →
          (constructTimes (fun e => e.fetchInto tag (.controller kind) make) n e').Decides
            (n = 0 ∨ taken kind + 1 + n ≤ descriptions.length) fun e'' =>
              e''.pool = e.pool ++ (List.range (n + 1)).map
                (fun i => make (NetworkInterface.returnedIndex (taken kind + i))) ∧
              e''.Ready (Function.update taken kind (taken kind + (n + 1))) descriptions := by
        rintro e' ⟨hpool, hready⟩
        have hloop := ih hready
        rw [Function.update_self, Function.update_idem] at hloop
        apply hloop.congr Iff.rfl
        rintro e'' ⟨hpool', hready'⟩
        have hcount : ∀ i, taken kind + 1 + i = taken kind + (i + 1) := by omega
        refine ⟨?_, by rwa [hcount] at hready'⟩
        rw [hpool', hpool, List.append_assoc, List.range_succ_eq_map, List.map_cons, List.map_map]
        simp only [hcount]
        rfl
      apply ((h.fetchInto_controller tag make).andThen hrest).congr _ fun _ he => he
      omega

theorem Ready.constructTimes_description (h : e.Ready taken descriptions) (tag : String)
    (desc : List Byte) (make : ℤ → PooledController) (n : ℕ) :
    (constructTimes (fun e => e.fetchInto tag (.description desc) make) n e).Decides
      (n = 0 ∨ desc ∈ descriptions) fun e' =>
        e'.pool = e.pool ++ List.replicate n
          (make (NetworkInterface.returnedIndex (descriptions.findIdx (· = desc)))) ∧
        e'.Ready taken descriptions := by
  induction n generalizing e with
  | zero =>
      constructor
      · intro _
        exact ⟨e, rfl, (List.append_nil _).symm, h⟩
      · intro hnot
        exact absurd (Or.inl rfl) hnot
  | succ n ih =>
      have hrest : ∀ e', (e'.pool = e.pool ++
            [make (NetworkInterface.returnedIndex (descriptions.findIdx (· = desc)))] ∧
            e'.Ready taken descriptions) →
          (constructTimes (fun e => e.fetchInto tag (.description desc) make) n e').Decides
            (n = 0 ∨ desc ∈ descriptions) fun e'' =>
              e''.pool = e.pool ++ List.replicate (n + 1)
                (make (NetworkInterface.returnedIndex (descriptions.findIdx (· = desc)))) ∧
              e''.Ready taken descriptions := by
        rintro e' ⟨hpool, hready⟩
        apply (ih hready).congr Iff.rfl
        rintro e'' ⟨hpool', hready'⟩
        refine ⟨?_, hready'⟩
        rw [hpool', hpool, List.append_assoc, List.replicate_succ]
        rfl
      apply ((h.fetchInto_description tag desc make).andThen hrest).congr _ fun _ he => he
      rw [or_iff_right (Nat.succ_ne_zero n)]
      exact ⟨fun hmem => ⟨hmem, Or.inr hmem⟩, fun hboth => hboth.1⟩

theorem constructTimes_push (controller : PooledController) (n : ℕ) (e : Engine) :
    ∃ e', constructTimes (fun e => some (.ok (e.pushControllerPool controller))) n e =
        some (.ok e') ∧
      e'.pool = e.pool ++ List.replicate n controller ∧ e'.network = e.network := by
  induction n generalizing e with
  | zero => exact ⟨e, rfl, (List.append_nil _).symm, rfl⟩
  | succ n ih =>
      obtain ⟨e', he', hpool, hnetwork⟩ := ih (e.pushControllerPool controller)
      refine ⟨e', he', ?_, hnetwork⟩
      rw [hpool, pushControllerPool, List.append_assoc, List.replicate_succ]
      rfl

end Engine

/-! ## The sections -/

namespace ConfigSection

variable {α : Type}

/-- The number of controllers that a section asks for. -/
def count (keys : ConfigSection α) : ℕ := if keys.enabled then keys.threadCount.toNat else 0

/-- What is read for a section can be read. -/
def Readable (keys : ConfigSection α) : Prop := ∃ settings, keys.settings = .ok settings

/-- The controllers of a section, where the numbered ones differ. -/
def controllers (keys : ConfigSection α) (make : ℕ → α → PooledController) :
    List PooledController :=
  match keys.settings with
  | .ok settings => (List.range keys.count).map fun i => make i settings
  | .error _ => []

/-- There is a description for each controller of a kind. -/
def Fits (keys : ConfigSection α) (descriptions : List (List Byte)) : Prop :=
  keys.count = 0 ∨ keys.Readable ∧ keys.count ≤ descriptions.length

/-- There is a description with the text that the controllers look for. -/
def Finds (keys : ConfigSection α) (desc : List Byte) (descriptions : List (List Byte)) : Prop :=
  keys.count = 0 ∨ keys.Readable ∧ desc ∈ descriptions

/-- The controllers of the section of `LoggingController`. -/
def loggers (keys : ConfigSection LoggingSettings) (index : ℤ) : List PooledController :=
  List.replicate keys.count
    (match keys.settings with
    | .ok settings => .logging (some settings) (some index)
    | .error _ => .logging none none)

/-- The log has a description, if a section that is read asks for one. -/
def Logs (keys : ConfigSection LoggingSettings) (descriptions : List (List Byte)) : Prop :=
  keys.count = 0 ∨ (keys.Readable → textBytes "Logs" ∈ descriptions)

end ConfigSection

namespace Engine

variable {e : Engine} {taken : ControllerKind → ℕ} {descriptions : List (List Byte)}
variable {kind : ControllerKind} {tag : String} {rethrown : String → String} {α : Type}

theorem constructSection_eq (construct : Except String α → Engine → Construction)
    (keys : ConfigSection α) (e : Engine) :
    constructSection construct keys e = constructTimes (construct keys.settings) keys.count e := by
  rw [constructSection, ConfigSection.count]
  split <;> rfl

theorem Ready.constructSection_controller {make : α → ℤ → PooledController}
    (h : e.Ready taken descriptions) (hnew : taken kind = 0) (keys : ConfigSection α) :
    (constructSection (construct tag rethrown (.controller kind) make) keys e).Decides
      (keys.Fits descriptions) fun e' =>
        e'.pool = e.pool ++ keys.controllers
          (fun i settings => make settings (NetworkInterface.returnedIndex i)) ∧
        e'.Ready (Function.update taken kind keys.count) descriptions := by
  rw [constructSection_eq, ConfigSection.Fits, ConfigSection.Readable, ConfigSection.controllers]
  cases keys.settings with
  | error what =>
      cases keys.count with
      | zero =>
          have hsame : Function.update taken kind 0 = taken := by
            rw [← hnew, Function.update_eq_self]
          rw [hsame]
          exact ⟨fun _ => ⟨e, rfl, (List.append_nil _).symm, h⟩,
            fun hnot => absurd (Or.inl rfl) hnot⟩
      | succ n => exact ⟨fun hcond => by simp at hcond, fun _ => ⟨_, _, rfl⟩⟩
  | ok settings =>
      have hloop := h.constructTimes_controller kind tag (make settings) keys.count
      simp only [hnew, Nat.zero_add] at hloop
      apply hloop.congr _ fun _ he => he
      simp

theorem Ready.constructSection_description {make : α → ℤ → PooledController}
    (h : e.Ready taken descriptions) (desc : List Byte) (keys : ConfigSection α) :
    (constructSection (construct tag rethrown (.description desc) make) keys e).Decides
      (keys.Finds desc descriptions) fun e' =>
        e'.pool = e.pool ++ keys.controllers (fun _ settings =>
          make settings (NetworkInterface.returnedIndex (descriptions.findIdx (· = desc)))) ∧
        e'.Ready taken descriptions := by
  rw [constructSection_eq, ConfigSection.Finds, ConfigSection.Readable, ConfigSection.controllers]
  cases keys.settings with
  | error what =>
      cases keys.count with
      | zero =>
          exact ⟨fun _ => ⟨e, rfl, (List.append_nil _).symm, h⟩,
            fun hnot => absurd (Or.inl rfl) hnot⟩
      | succ n => exact ⟨fun hcond => by simp at hcond, fun _ => ⟨_, _, rfl⟩⟩
  | ok settings =>
      apply (h.constructTimes_description tag desc (make settings) keys.count).congr
      · simp
      · rintro e' ⟨hpool, hready⟩
        refine ⟨?_, hready⟩
        simp [hpool]

theorem Ready.constructSection_logging (h : e.Ready taken descriptions)
    (keys : ConfigSection LoggingSettings) :
    (constructSection LoggingController keys e).Decides (keys.Logs descriptions) fun e' =>
      e'.pool = e.pool ++ keys.loggers
        (NetworkInterface.returnedIndex (descriptions.findIdx (· = textBytes "Logs"))) ∧
      e'.Ready taken descriptions := by
  rw [constructSection_eq, ConfigSection.Logs, ConfigSection.Readable, ConfigSection.loggers]
  cases keys.settings with
  | error what =>
      refine ⟨fun _ => ?_, fun hnot => absurd (Or.inr (by simp)) hnot⟩
      obtain ⟨e', he', hpool, hnetwork⟩ := constructTimes_push (.logging none none) keys.count e
      exact ⟨e', he', hpool, hnetwork ▸ h.unlocked, hnetwork ▸ h.taken, hnetwork ▸ h.descriptions⟩
  | ok settings =>
      apply (h.constructTimes_description "LoggingController" (textBytes "Logs")
        (fun index => .logging (some settings) (some index)) keys.count).congr
      · simp
      · intro e' he'
        exact he'

theorem iniNetworkInterfaceFrom_network (entries : List InterfaceEntry) (i : ℕ) (e : Engine) :
    (e.iniNetworkInterfaceFrom i entries).2.network = { e.network with
      networkList := e.network.networkList ++
        (NetworkInterface.iniNetworkInterface (readableEntries entries)).networkList } ∧
      (e.iniNetworkInterfaceFrom i entries).2.pool = e.pool := by
  induction entries generalizing i e with
  | nil => simp [iniNetworkInterfaceFrom, readableEntries, NetworkInterface.iniNetworkInterface]
  | cons entry entries ih =>
      rw [iniNetworkInterfaceFrom, readableEntries]
      cases entry.settings with
      | error what => simp [log, NetworkInterface.iniNetworkInterface]
      | ok settings =>
          refine ⟨(ih _ _).1.trans ?_, (ih _ _).2⟩
          simp [log, NetworkInterface.iniNetworkInterface]

theorem ready_iniNetworkInterface (entries : List InterfaceEntry) :
    (iniNetworkInterface entries).2.Ready (fun _ => 0)
        ((readableEntries entries).map NetworkSettings.description) ∧
      (iniNetworkInterface entries).2.pool = [] := by
  obtain ⟨hnetwork, hpool⟩ := iniNetworkInterfaceFrom_network entries 0
    ((⟨NetworkInterface.iniNetworkInterface [], [], []⟩ : Engine).log "NetworkInterface" .Info
      (textBytes "Network Interface Size: \x7b " ++ textBytes (toString entries.length) ++
        textBytes " \x7d"))
  refine ⟨⟨?_, ?_, ?_⟩, hpool⟩
  · exact congrArg NetworkInterface.getDescriptionMutex hnetwork
  · intro kind
    rw [iniNetworkInterface, hnetwork]
    apply takenBelow_zero
    intro d hd
    obtain ⟨entry, _, rfl⟩ : ∃ entry, entry ∈ readableEntries entries ∧ _ = d := by
      simpa [log, NetworkInterface.iniNetworkInterface] using hd
    cases kind <;> rfl
  · rw [iniNetworkInterface, hnetwork]
    simp [log, NetworkInterface.iniNetworkInterface, NetworkDescription.new]

end Engine

/-! ## The whole of `main` -/

namespace EngineConfig

/-- The texts of the descriptions that the interface gets. -/
def descriptions (config : EngineConfig) : List (List Byte) :=
  (readableEntries config.networkInterface).map NetworkSettings.description

/-- The number of descriptions that each kind of controllers takes. -/
def taken (config : EngineConfig) : ControllerKind → ℕ
  | .connection => config.networkConnectionController.count
  | .writer => config.networkWriterController.count
  | .reader => config.networkReaderController.count

/-- The index of the first description with a text. -/
def indexOf (config : EngineConfig) (desc : List Byte) : ℤ :=
  NetworkInterface.returnedIndex (config.descriptions.findIdx (· = desc))

/-- The pool that the configuration asks for. -/
def pool (config : EngineConfig) : List PooledController :=
  config.loggingController.loggers (config.indexOf (textBytes "Logs")) ++
  config.networkConnectionController.controllers
    (fun i settings => .connection settings (NetworkInterface.returnedIndex i)) ++
  config.networkWriterController.controllers
    (fun i settings => .writer settings (NetworkInterface.returnedIndex i)) ++
  config.networkReaderController.controllers
    (fun i settings => .reader settings (NetworkInterface.returnedIndex i)) ++
  config.commandExecuterController.controllers
    (fun _ settings => .executer settings (config.indexOf (textBytes "Commands")))

/-- What the configuration has to give for the engine to start. -/
structure Startable (config : EngineConfig) : Prop where
  logs : config.loggingController.Logs config.descriptions
  connections : config.networkConnectionController.Fits config.descriptions
  writers : config.networkWriterController.Fits config.descriptions
  readers : config.networkReaderController.Fits config.descriptions
  commands : config.commandExecuterController.Finds (textBytes "Commands") config.descriptions

theorem startable_iff (config : EngineConfig) : config.Startable ↔
    config.loggingController.Logs config.descriptions ∧
    config.networkConnectionController.Fits config.descriptions ∧
    config.networkWriterController.Fits config.descriptions ∧
    config.networkReaderController.Fits config.descriptions ∧
    config.commandExecuterController.Finds (textBytes "Commands") config.descriptions :=
  ⟨fun h => ⟨h.logs, h.connections, h.writers, h.readers, h.commands⟩,
    fun ⟨hlogs, hconnections, hwriters, hreaders, hcommands⟩ =>
      ⟨hlogs, hconnections, hwriters, hreaders, hcommands⟩⟩

end EngineConfig

theorem built_decides (config : EngineConfig) {e : Engine} (hpool : e.pool = [])
    (hready : e.Ready (fun _ => 0) config.descriptions) :
    (Engine.andThen (Engine.constructSection Engine.LoggingController
        config.loggingController e) fun e =>
      Engine.andThen (Engine.constructSection Engine.NetworkConnectionController
        config.networkConnectionController e) fun e =>
      Engine.andThen (Engine.constructSection Engine.NetworkWriterController
        config.networkWriterController e) fun e =>
      Engine.andThen (Engine.constructSection Engine.NetworkReaderController
        config.networkReaderController e) fun e =>
      Engine.constructSection Engine.CommandExecuterController
        config.commandExecuterController e).Decides config.Startable fun e =>
      e.pool = config.pool ∧ e.Ready config.taken config.descriptions := by
  refine Construction.Decides.congr ?_ config.startable_iff fun _ he => he
  refine (hready.constructSection_logging config.loggingController).andThen ?_
  rintro e₁ ⟨hpool₁, hready₁⟩
  refine (hready₁.constructSection_controller ?_ config.networkConnectionController).andThen ?_
  · rfl
  rintro e₂ ⟨hpool₂, hready₂⟩
  refine (hready₂.constructSection_controller ?_ config.networkWriterController).andThen ?_
  · rfl
  rintro e₃ ⟨hpool₃, hready₃⟩
  refine (hready₃.constructSection_controller ?_ config.networkReaderController).andThen ?_
  · rfl
  rintro e₄ ⟨hpool₄, hready₄⟩
  refine (hready₄.constructSection_description _ config.commandExecuterController).congr Iff.rfl ?_
  rintro e₅ ⟨hpool₅, hready₅⟩
  have htaken : Function.update (Function.update (Function.update (fun _ => 0) .connection
      config.networkConnectionController.count) .writer config.networkWriterController.count)
      .reader config.networkReaderController.count = config.taken := by
    funext kind
    cases kind <;> rfl
  refine ⟨?_, htaken ▸ hready₅⟩
  rw [hpool₅, hpool₄, hpool₃, hpool₂, hpool₁, hpool]
  rfl

/-- The engine starts exactly where each controller that is asked for finds its section and
its description, except that a logger without a readable section needs neither: it is pooled
with no settings.  The pool then is the one that was asked for, each other controller with the
index that is its own.  Everywhere else the process ends with what was thrown. -/
theorem main_runs_or_terminates (config : EngineConfig) :
    (config.Startable → ∃ e, main (some config) = some (.runs e) ∧ e.pool = config.pool ∧
        e.Ready config.taken config.descriptions) ∧
      (¬ config.Startable → ∃ thrown, main (some config) = some (.terminates thrown)) := by
  obtain ⟨hready, hpool⟩ := Engine.ready_iniNetworkInterface config.networkInterface
  have hbuilt := built_decides config hpool hready
  constructor
  · intro hstart
    obtain ⟨e, he, hholds⟩ := hbuilt.goesOn hstart
    exact ⟨e, congrArg (Option.map _) he, hholds⟩
  · intro hnot
    obtain ⟨thrown, e, he⟩ := hbuilt.fails hnot
    exact ⟨thrown, congrArg (Option.map _) he⟩

/-- The settings of the configuration that comes with the engine. -/
def shipped : EngineConfig where
  networkInterface :=
    [⟨.ok ⟨[], 7225, textBytes "Logs", textBytes "TCP", textBytes "Server"⟩, []⟩,
      ⟨.ok ⟨[], 7226, textBytes "Commands", textBytes "TCP", textBytes "Server"⟩, []⟩]
  loggingController := ⟨true, 1, .ok ⟨⟨1, true⟩, fun target severity =>
    target = "Screen" ∨ (target = "Network" ∧ severity ≠ "System"), 60,
    textBytes "/var/log/ControlEngine.log"⟩⟩
  networkConnectionController := ⟨true, 1, .ok ⟨⟨1, true⟩, true⟩⟩
  networkWriterController := ⟨true, 1, .ok ⟨1, true⟩⟩
  networkReaderController := ⟨true, 1, .ok ⟨1, true⟩⟩
  commandExecuterController := ⟨false, 1, .ok ⟨1, true⟩⟩

theorem main_runs_or_terminates_shipped :
    ∃ e, main (some shipped) = some (.runs e) ∧ e.pool = shipped.pool ∧
      e.Ready shipped.taken shipped.descriptions := by
  apply (main_runs_or_terminates shipped).1
  refine ⟨Or.inr fun _ => ?_, Or.inr ⟨⟨_, rfl⟩, ?_⟩, Or.inr ⟨⟨_, rfl⟩, ?_⟩, Or.inr ⟨⟨_, rfl⟩, ?_⟩,
    Or.inl rfl⟩
  · decide
  · decide
  · decide
  · decide

end ControlEngine

/-
  What a builder makes of its steps, whatever order they come in.

  A step is a setting, a layer, or a wish for the default layers or against them; helpers that add a
  usual layer are steps `.layer m.layer`.  Each kind touches one part of the builder, so after any
  steps every part is told by the steps of its kind alone.

  1. **Settings.**  The last value set for each of the five counts (`Settings.foldl_set`).
  2. **Builders.**  By induction from the right: one step (`Builder.step_eq`), then all of them
     (`Builder.ofSteps_eq`).
  3. **Clients.**  Configuration and service of the client that is built follow, and steps that tell
     the same parts build the same client.
-/
import Mathlib.Data.List.Induction
import PlatformClient.Client

namespace PlatformClient

/-! ## The last one read -/

/-- The last value that is read of a list. -/
def latest {α β : Type} (read : α → Option β) (l : List α) : Option β :=
  (l.filterMap read).getLast?

section Latest

variable {α β : Type} (read : α → Option β) (l : List α) (a : α)

theorem filterMap_append_singleton :
    (l ++ [a]).filterMap read = l.filterMap read ++ (read a).toList := by
  rw [List.filterMap_append, List.filterMap_cons, List.filterMap_nil]
  cases read a <;> rfl

/-- A later step counts more than all before it. -/
theorem latest_append_singleton : latest read (l ++ [a]) = (read a).or (latest read l) := by
  rw [latest, latest, filterMap_append_singleton, List.getLast?_append]
  cases read a <;> rfl

end Latest

/-! ## Settings -/

namespace Setting

def timeout? : Setting → Option Duration
  | timeout d => some d
  | _ => none

def connectTimeout? : Setting → Option Duration
  | connectTimeout d => some d
  | _ => none

def poolIdlePerHost? : Setting → Option Nat
  | poolIdlePerHost n => some n
  | _ => none

def poolIdleTimeout? : Setting → Option Duration
  | poolIdleTimeout d => some d
  | _ => none

def maxBodySize? : Setting → Option Nat
  | maxBodySize n => some n
  | _ => none

end Setting

namespace Settings

/-- The last value of each setting. -/
def last (ss : List Setting) : Settings where
  timeout := latest Setting.timeout? ss
  connectTimeout := latest Setting.connectTimeout? ss
  poolIdlePerHost := latest Setting.poolIdlePerHost? ss
  poolIdleTimeout := latest Setting.poolIdleTimeout? ss
  maxBodySize := latest Setting.maxBodySize? ss

/-- A setting replaces the value of its own, and no other. -/
theorem set_eq (settings : Settings) (s : Setting) : settings.set s =
    ⟨s.timeout?.or settings.timeout, s.connectTimeout?.or settings.connectTimeout,
      s.poolIdlePerHost?.or settings.poolIdlePerHost,
      s.poolIdleTimeout?.or settings.poolIdleTimeout, s.maxBodySize?.or settings.maxBodySize⟩ := by
  cases s <;> rfl

/-- Of the settings made, the last values remain. -/
theorem foldl_set (ss : List Setting) : ss.foldl set .none = last ss := by
  induction ss using List.reverseRecOn with
  | nil => rfl
  | append_singleton ss s ih =>
    rw [List.foldl_append, ih, List.foldl_cons, List.foldl_nil, set_eq]
    simp only [last, latest_append_singleton]

end Settings

/-! ## Builders -/

namespace Builder

def Step.setting? : Step → Option Setting
  | set s => some s
  | _ => none

def Step.layer? : Step → Option Layer
  | layer l => some l
  | _ => none

/-- Whether the default layers are wanted, if the step is about them. -/
def Step.wish? : Step → Option Bool
  | defaults wanted => some wanted
  | _ => none

/-- The settings among steps. -/
def settingsOf (steps : List Step) : List Setting := steps.filterMap Step.setting?

/-- The layers among steps. -/
def layersOf (steps : List Step) : List Layer := steps.filterMap Step.layer?

/-- A step changes the part of its kind, and no other. -/
theorem step_eq (b : Builder) (s : Step) : b.step s =
    ⟨s.setting?.toList.foldl Settings.set b.settings, b.layers ++ s.layer?.toList,
      s.wish?.getD b.defaults⟩ := by
  have hlayers : b.layers ++ [] = b.layers := List.append_nil _
  cases s with
  | set s => exact congrArg (Builder.mk _ · _) hlayers.symm
  | layer l => rfl
  | defaults wanted => exact congrArg (Builder.mk _ · _) hlayers.symm

/-- After steps every part is told by the steps of its kind. -/
theorem ofSteps_eq (steps : List Step) : ofSteps steps =
    ⟨(settingsOf steps).foldl Settings.set .none, layersOf steps,
      (latest Step.wish? steps).getD false⟩ := by
  induction steps using List.reverseRecOn with
  | nil => rfl
  | append_singleton steps s ih =>
    -- each part of the builder gets what the last step has for it
    have hlast : ofSteps (steps ++ [s]) = (ofSteps steps).step s := List.foldl_append
    have hsettings : settingsOf (steps ++ [s]) = settingsOf steps ++ s.setting?.toList :=
      filterMap_append_singleton _ _ _
    have hlayers : layersOf (steps ++ [s]) = layersOf steps ++ s.layer?.toList :=
      filterMap_append_singleton _ _ _
    rw [hlast, step_eq, ih, hsettings, hlayers, List.foldl_append, latest_append_singleton]
    cases s.wish? <;> rfl

/-! ## Clients -/

/-- The configuration with the last value of each setting, or with its default. -/
def lastConfig (ss : List Setting) : Config where
  timeout := (latest Setting.timeout? ss).getD (.ofSeconds 30)
  connectTimeout := (latest Setting.connectTimeout? ss).getD (.ofSeconds 10)
  poolIdlePerHost := (latest Setting.poolIdlePerHost? ss).getD 32
  poolIdleTimeout := (latest Setting.poolIdleTimeout? ss).getD (.ofSeconds 90)
  maxBodySize := latest Setting.maxBodySize? ss

/-- The configuration holds the last value of each setting, or its default. -/
theorem config_last (ss : List Setting) : (Settings.last ss).config = lastConfig ss := by
  have hsize : (latest Setting.maxBodySize? ss <|> none) = latest Setting.maxBodySize? ss := by
    simp
  exact congrArg (Config.mk _ _ _ _) hsize

/-- The default layers are the innermost, and only there if they were wanted last. -/
theorem behind_stack (transport : Service) (clock : Clock) (settings : Settings)
    (layers : List Layer) (wish : Option Bool) :
    transport.behind (stack clock ⟨settings, layers, wish.getD false⟩) =
      (if wish = some true then Layer.logging (.summary clock) transport else transport).behind
        layers := by
  match wish with
  | none => rfl
  | some false => rfl
  | some true => rfl

/-- A client as the settings, the wishes and the layers among steps make it, each on their own. -/
structure MadeOf (transport : Config → Service) (clock : Clock) (steps : List Step)
    (client : Client) : Prop where
  /-- The settings alone make the same configuration. -/
  settings : client.config = ((settingsOf steps).foldl Settings.set .none).config
  config : client.config = lastConfig (settingsOf steps)
  /-- From the inside out: the transport, the default layer if the last wish was for it, and the
      layers in the order they were added. -/
  stack : client.stack =
    (if latest Step.wish? steps = some true
      then Layer.logging (.summary clock) (transport client.config)
      else transport client.config).behind (layersOf steps)

/-- Steps with the same last value of each setting, the same last wish, and the same layers. -/
structure SameParts (steps steps' : List Step) : Prop where
  settings : Settings.last (settingsOf steps) = Settings.last (settingsOf steps')
  wish : latest Step.wish? steps = latest Step.wish? steps'
  layers : layersOf steps = layersOf steps'

/-- Every client is made of its steps in this way, by induction from the last step. -/
theorem build_madeOf (transport : Config → Service) (clock : Clock) (steps : List Step) :
    MadeOf transport clock steps ((ofSteps steps).build transport clock) := by
  rw [ofSteps_eq]
  refine ⟨rfl, ?_, behind_stack _ _ _ _ _⟩
  show Settings.config _ = _
  rw [Settings.foldl_set, config_last]

/-- Steps with the same parts build the same client, in whatever order they were mixed. -/
theorem SameParts.build_eq {steps steps' : List Step} (h : SameParts steps steps')
    (transport : Config → Service) (clock : Clock) :
    (ofSteps steps').build transport clock = (ofSteps steps).build transport clock := by
  rw [ofSteps_eq, ofSteps_eq, Settings.foldl_set, Settings.foldl_set, h.settings, h.wish, h.layers]

/-- In whatever order the steps come, a client is made of their settings, their wishes and their
    layers.  Steps that are the same in these make the same client: the same configuration, and for
    every request the same result and the same trace. -/
theorem build_ofSteps (transport : Config → Service) (clock : Clock) (steps : List Step) :
    MadeOf transport clock steps ((ofSteps steps).build transport clock) ∧
      ∀ steps', SameParts steps steps' →
        (ofSteps steps').build transport clock = (ofSteps steps).build transport clock :=
  ⟨build_madeOf transport clock steps, fun _ h => h.build_eq transport clock⟩

/-- Two orders of the same layers; settings and wishes stand between them, and those in front of the
    last ones do not count. -/
theorem build_in_two_orders :
    let transport := fun config : Config =>
      Service.constant (.ok ()) (.error (.connection config.describe))
    let logging : Layer := .logging ⟨.headers, .stopped⟩
    let steps : List Step := [.layer logging, .set (.timeout (.ofSeconds 5)),
      .defaults true, .set (.timeout (.ofSeconds 60)), .layer (.mapping ⟨.v3⟩),
      .set (.maxBodySize 1024)]
    let steps' : List Step := [.defaults false, .set (.maxBodySize 1024),
      .set (.timeout (.ofSeconds 60)), .layer logging, .defaults true,
      .layer (.mapping ⟨.v3⟩)]
    let config : Config := ⟨.ofSeconds 60, .ofSeconds 10, 32, .ofSeconds 90, some 1024⟩
    let client := (ofSteps steps).build transport .stopped
    client.config = config ∧
      client.stack =
        Layer.mapping ⟨.v3⟩
          (logging (Layer.logging (.summary .stopped) (transport config))) ∧
      (ofSteps steps').build transport .stopped = client := by
  intro transport logging steps steps' config client
  obtain ⟨hmade, hsame⟩ := build_ofSteps transport .stopped steps
  have hconfig : client.config = config := hmade.config
  refine ⟨hconfig, ?_, hsame steps' ⟨rfl, rfl, rfl⟩⟩
  rw [← hconfig]
  exact hmade.stack

end Builder

end PlatformClient

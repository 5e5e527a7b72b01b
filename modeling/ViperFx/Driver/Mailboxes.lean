/-
The mailboxes that carry parameters and telemetry between a control thread and an audio thread: `src/ParameterMailbox.cpp`,
`src/IemParameterMailbox.cpp` and the publisher of `IEMDSP/src/IemTelemetry.cpp`.

The three are one protocol (`Core.Mailbox`). The parameter mailboxes write the generation of a slot last and do not obtain what
they have; in the telemetry the sequence number is the first member of the snapshot, every read copies it, and `Configure` lets
the numbers begin anew. What the parameters are made of is left open (`Record`).

Results:
  · mailboxes_linearizable : every run of each of the three, however its threads interleave
-/
import ViperFx.Core.Mailbox

namespace ViperFx.Driver

open ViperFx.Core.Mailbox

/-- the members of a record in the order in which they are copied -/
structure Record (F : Type) where
  members : List F
  all : ∀ f, f ∈ members

section Layouts

variable {F V : Type}

/-- `ParameterMailbox` and `IemParameterMailbox`: the parameters, then the generation; only a newer one is obtained -/
def mailboxLayout (record : Record F) (initial : F → V) : Layout F V where
  writes := record.members.map .field ++ [.generation]
  reads := record.members
  initial := initial
  filtered := true
  restarts := false
  usable := fun _ => true
  writes_all := by
    intro cell
    cases cell with
    | generation => exact List.mem_append_right _ List.mem_cons_self
    | field f => exact List.mem_append_left _ (List.mem_map_of_mem (record.all f))
  reads_all := record.all
  filtered_runs := fun _ => rfl
  initial_refused := .inl rfl

def parameterMailbox (viperParams : Record F) (initial : F → V) : Layout F V := mailboxLayout viperParams initial

def iemParameterMailbox (iemParams : Record F) (initial : F → V) : Layout F V := mailboxLayout iemParams initial

end Layouts

/-- the members of `IemTelemetrySnapshot` but for the sequence number, which is the generation of a slot -/
inductive IemTelemetryMember where
  | processedFrames
  | latestProcessNs
  | averageProcessNs
  | maxProcessNs
  | deadlineMisses
  | outputUnderflows
  | inputOverflows
  | outputOverflows
  | grainPoolExhaustions
  | graphGeneration
  | hostSampleRate
  | internalSampleRate
  | latencyFrames
  | activeGrains
  | encoderMode
  | renderMode
  | ambisonicsOrder
  | haloPrepared
  | haloStftLatencyFrames
  | dialogNetResult
  | faultCode
  | preparationResult
  | latencyMs
  | limiterGainReductionDb
  | bypassReason
  | enabled
  | prepared
deriving DecidableEq, Repr

def iemTelemetrySnapshot : Record IemTelemetryMember where
  members :=
    [.processedFrames, .latestProcessNs, .averageProcessNs, .maxProcessNs, .deadlineMisses, .outputUnderflows, .inputOverflows,
      .outputOverflows, .grainPoolExhaustions, .graphGeneration, .hostSampleRate, .internalSampleRate, .latencyFrames,
      .activeGrains, .encoderMode, .renderMode, .ambisonicsOrder, .haloPrepared, .haloStftLatencyFrames, .dialogNetResult,
      .faultCode, .preparationResult, .latencyMs, .limiterGainReductionDb, .bypassReason, .enabled, .prepared]
  all := by
    intro f
    cases f <;> decide

/-- the numbers of the enumerations are those of the source: `DISABLED` is the second bypass reason -/
def IemTelemetryMember.default : IemTelemetryMember → ℚ
  | .internalSampleRate => 96000
  | .bypassReason => 1
  | _ => 0

/-- `IemTelemetryPublisher`; `Configure` begins the sequence anew, and `Read` answers whether the snapshot is prepared -/
def iemTelemetryPublisher : Layout IemTelemetryMember ℚ where
  writes := .generation :: iemTelemetrySnapshot.members.map .field
  reads := iemTelemetrySnapshot.members
  initial := IemTelemetryMember.default
  filtered := false
  restarts := true
  usable := fun snapshot => snapshot .prepared != 0
  writes_all := by
    intro cell
    cases cell with
    | generation => exact List.mem_cons_self
    | field f => exact List.mem_cons_of_mem _ (List.mem_map_of_mem (iemTelemetrySnapshot.all f))
  reads_all := iemTelemetrySnapshot.all
  filtered_runs := nofun
  initial_refused := .inr rfl

/-- **The mailboxes are linearizable.** In every state that any interleaving of the two threads can lead to: the search of the
producer has ended inside the three slots, no slot is copied while it is written, and what was obtained is what was published,
whole, in order, and none of it older than what was there when the read began. -/
theorem mailboxes_linearizable {F V : Type} [DecidableEq F] (params : Record F) (initial : F → V) :
    (∀ s, Reachable (parameterMailbox params initial) s → Linearizable (parameterMailbox params initial) s) ∧
    (∀ s, Reachable (iemParameterMailbox params initial) s → Linearizable (iemParameterMailbox params initial) s) ∧
    ∀ s, Reachable iemTelemetryPublisher s → Linearizable iemTelemetryPublisher s :=
  ⟨fun _ h => .of_inv (run_inv h), fun _ h => .of_inv (run_inv h), fun _ h => .of_inv (run_inv h)⟩

end ViperFx.Driver

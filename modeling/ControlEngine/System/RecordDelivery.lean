import ControlEngine.System.Delivery
import ControlEngine.System.Pipeline

/-!
# Records over many connections

The messages of the records are delivered like all messages, each at most once and in the order
of their pushes (`Delivery`), and they are pushed in the order of their records (`Pipeline`).
So a peer that comes back after a connection was lost finds records that it has not seen, later
ones than it has, in the order in which they were logged; what was given up between two
connections is missing, and nothing else is.
-/

namespace ControlEngine

namespace Pipeline

/-- The client keeps its frames. -/
def KeepsFrames (env : Environment) (c : LoggingController) (p : Pipeline)
    (act : PipelineAct) : Prop :=
  ∀ clientAct ∈ p.clientAct c act, ControlEngine.KeepsFrames env p.system clientAct

instance (env : Environment) (c : LoggingController) (p : Pipeline) (act : PipelineAct) :
    Decidable (p.KeepsFrames env c act) :=
  Option.decidableForallMem _

/-- The records that were delivered, each with its connection: their messages are those that
`sendData` has returned for without a failure, or is about to; they are among the records that
were popped for the network, and among those that were logged, in the same order and none of
them twice; the connections were used one after the other; and on each connection `readData`
reads back the messages of its records, and every legible record out of its message. -/
structure Delivers (p : Pipeline) (env : Environment) (c : LoggingController)
    (receiver : Allocator) (deliveries : List (ℕ × Popped)) : Prop where
  sent : MadeOf env (deliveries.map Prod.snd)
    (sent p.system.history ++ WriterPc.complete (p.system.threads .writer))
  popped : (deliveries.map Prod.snd).Sublist (p.logger.poppedWith c.network.on)
  logged : (deliveries.map fun d => d.2.holder).Sublist p.logged
  inOrder : (deliveries.map Prod.fst).Pairwise (· ≤ ·)
  reads : ∀ object, ∃ messages,
    List.Forall₂ (fun r m => m.buffer.contents = r.record ∧
      (r.Legible → parseLog m.buffer.contents = some [r])) (onChannel object deliveries) messages ∧
    ∀ cut, HeadersUncut env.order cut 0 messages →
      ReadsBack receiver env.order ⟨bytesOn object p.system.history, cut, .blocks⟩ 0 messages

end Pipeline

variable {env : Environment} {rateText : BitVec 32 → List Byte} {c : LoggingController}

theorem MadeOf.sublist {records : List Popped} {messages some : List TcpMessage}
    (h : MadeOf env records messages) (hsome : some.Sublist messages) :
    ∃ chosen, chosen.Sublist records ∧ MadeOf env chosen some := by
  induction hsome generalizing records with
  | slnil => exact ⟨[], List.nil_sublist _, .nil⟩
  | cons m hsome ih =>
      cases h with
      | @cons r _ records _ hfirst hrest =>
          obtain ⟨chosen, hchosen, hmade⟩ := ih hrest
          exact ⟨chosen, hchosen.cons r, hmade⟩
  | cons_cons m hsome ih =>
      cases h with
      | @cons r _ records _ hfirst hrest =>
          obtain ⟨chosen, hchosen, hmade⟩ := ih hrest
          exact ⟨r :: chosen, hchosen.cons_cons r, .cons hfirst hmade⟩

namespace Pipeline

variable {p : Pipeline}

theorem guarded_system_of_keepsFrames {p₀ : Pipeline}
    (hrun : Guarded (Pipeline.step env rateText c) (KeepsFrames env c) p₀ p) :
    Guarded (System.step env) (ControlEngine.KeepsFrames env) p₀.system p.system := by
  induction hrun with
  | refl => exact Guarded.refl _
  | tail _ hlast ih =>
      obtain ⟨act, hguard, hstep⟩ := hlast
      rcases step_cases hstep with
        ⟨-, -, -, -, -, rfl⟩ | ⟨clientAct, system, hact, hsystem, rfl⟩
      · exact ih
      · exact ih.tail (hguard clientAct hact) hsystem

/-- The log over any number of connections: in every run in which no `send` cuts a field short,
no ping is transmitted, and no connection is replaced under a frame, the peers receive records
that were logged, each at most once and in the order in which they were logged. -/
theorem records_delivered_of_keepsFrames {mQueue : List Holder} {now : ℤ} {receiver : Allocator}
    (hreceiver : ∀ size : SizeT, size.toNat < 2 ^ 63 → receiver.Provides size)
    (hrun : Guarded (Pipeline.step env rateText c) (KeepsFrames env c) (start mQueue now) p) :
    ∃ deliveries, p.Delivers env c receiver deliveries := by
  have hsystem := guarded_system_of_keepsFrames hrun
  obtain ⟨messages, tail, hflow⟩ := flow_of_keepsFrames hsystem
  obtain ⟨hlogged, handed, atLogger, hsplit, hmade, -⟩ := linked_of_reaches hrun.reaches
  -- The records of the delivered messages, on the connections of these.
  obtain ⟨records, hrecords, hchosen⟩ :=
    hmade.sublist (hflow.once (balanced_of_reaches hsystem.reaches))
  obtain ⟨deliveries, rfl, hobjects, hplaced⟩ := exists_onChannel hchosen
  have hpopped : (deliveries.map Prod.snd).Sublist (p.logger.poppedWith c.network.on) := by
    rw [hsplit]
    exact hrecords.trans (List.sublist_append_left _ _)
  refine ⟨deliveries, ?_, hpopped, ?_, ?_, ?_⟩
  · rw [← hflow.messages]
    exact hchosen
  · have hholders := (hpopped.trans (List.filter_sublist)).map Popped.holder
    rw [List.map_map] at hholders
    rw [hlogged]
    exact hholders.trans (List.sublist_append_left _ _)
  · rw [hobjects]
    exact hflow.carried.inOrder
  · intro object
    refine ⟨onChannel object messages, ?_, hflow.reads hreceiver hsystem.reaches object⟩
    exact (hplaced object).imp fun r m => contents_of_made

/-- A record is sent, the next one is given up when its first `send` fails, and a third one is
sent on a new connection. -/
def sendRecordsAcross : List PipelineAct :=
  (connect 5 6).map ofAct ++ sendRecord ++ [.logger (.readClock 0)] ++ sendRecord.take 10 ++
    [.thread .writer (.returns (-1))] ++ List.replicate 4 (.thread .writer .plain) ++
    [.thread .controller .plain] ++ (connect 5 6).map ofAct ++ [.logger (.readClock 0)] ++
    sendRecord

theorem records_delivered_of_keepsFrames_sendRecordsAcross : ∃ p : Pipeline, ∃ deliveries,
    runActs (step Environment.plain LoggerThread.wholeRate networkOnly)
      (KeepsFrames Environment.plain networkOnly)
      (start (List.replicate 3 LoggerThread.someInfo) 0) sendRecordsAcross = some p ∧
    p.Delivers Environment.plain networkOnly Allocator.zeroed deliveries ∧
    (p.logger.poppedWith networkOnly.network.on).length = 3 ∧ deliveries.length = 2 := by
  obtain ⟨p, hrun, hpopped, hsent⟩ : ∃ p : Pipeline,
      runActs (step Environment.plain LoggerThread.wholeRate networkOnly)
        (KeepsFrames Environment.plain networkOnly)
        (start (List.replicate 3 LoggerThread.someInfo) 0) sendRecordsAcross = some p ∧
      (p.logger.poppedWith networkOnly.network.on).length = 3 ∧
      (sent p.system.history ++ WriterPc.complete (p.system.threads .writer)).length = 2 := by
    set_option maxRecDepth 20000 in
    exact ⟨_, rfl, by decide, by decide⟩
  obtain ⟨deliveries, hdelivers⟩ := records_delivered_of_keepsFrames
    (fun _ hsize => Allocator.zeroed_provides hsize) (guarded_of_runActs hrun)
  refine ⟨p, deliveries, hrun, hdelivers, hpopped, ?_⟩
  have hlength := hdelivers.sent.length_eq
  rw [List.length_map, hsent] at hlength
  exact hlength

end Pipeline

end ControlEngine

import Chip8.Proofs.Frames

/-! # Receivers

The term of a receiver goes from its attachment to the attachment of the next one. While
it is there it takes every frame that is drawn, in order; before and after that it takes
none. Once it is gone, the first draw that is left in its term notices that, and no other.
-/

namespace Chip8

/-- Neither the loss of a receiver nor the attachment of another. -/
def Operation.keeps (receiver : Nat) : Operation → Bool
  | .attach => false
  | .dropReceiver other => other != receiver
  | _ => true

def Report.frameTo? (receiver : Nat) (report : Report) : Option String :=
  (report.delivered.filter fun delivery => delivery.receiver == receiver).map Delivery.frame

def framesTo (receiver : Nat) (reports : List Report) : List String :=
  reports.filterMap (Report.frameTo? receiver)

def losses (reports : List Report) : Nat :=
  (reports.flatMap Report.notices).count .receiverGone

theorem framesTo_cons (receiver : Nat) (report : Report) (reports : List Report) :
    framesTo receiver (report :: reports) =
      (report.frameTo? receiver).toList ++ framesTo receiver reports := by
  rw [framesTo, List.filterMap_cons]
  cases report.frameTo? receiver <;> rfl

theorem framesTo_append (receiver : Nat) (first second : List Report) :
    framesTo receiver (first ++ second) = framesTo receiver first ++ framesTo receiver second :=
  List.filterMap_append

theorem losses_cons (report : Report) (reports : List Report) :
    losses (report :: reports) = report.notices.count .receiverGone + losses reports := by
  rw [losses, List.flatMap_cons, List.count_append]
  rfl

theorem losses_append (first second : List Report) :
    losses (first ++ second) = losses first + losses second := by
  rw [losses, List.flatMap_append, List.count_append]
  rfl

namespace Console

/-! ## Before its attachment -/

/-- The receiver in the sink is one of those that were attached. -/
def Numbered (console : Console) : Prop :=
  ∀ sink, console.sink = some sink → sink.receiver < console.attached

theorem Numbered.step (console : Console) (operation : Operation) (numbered : console.Numbered) :
    (console.perform operation).console.Numbered := by
  intro sink plugged
  cases console.sinkStep operation with
  | attached asked report =>
      rw [report.sink] at plugged
      rw [report.attached]
      cases plugged
      exact Nat.lt_succ_self _
  | dropped receiver asked report =>
      rw [report.sink] at plugged
      obtain ⟨held, plugged, left⟩ := Option.map_eq_some_iff.mp plugged
      have same : sink.receiver = held.receiver := by
        rw [← left, Sink.without]
        split <;> rfl
      rw [report.attached, same]
      exact numbered held plugged
  | unplugged frame drawn detached report | missed receiver frame drawn held report =>
      rw [report.sink] at plugged
      cases plugged
  | taken receiver frame drawn held report =>
      rw [report.sink] at plugged
      rw [report.attached]
      exact numbered sink (held.trans plugged)
  | other undrawn report =>
      rw [report.sink] at plugged
      rw [report.attached]
      exact numbered sink plugged

theorem attached_le_perform (console : Console) (operation : Operation) :
    console.attached ≤ (console.perform operation).console.attached := by
  cases console.sinkStep operation with
  | attached asked report =>
      rw [report.attached]
      omega
  | dropped receiver asked report | unplugged frame drawn sink report
  | taken receiver frame drawn sink report | missed receiver frame drawn sink report
  | other undrawn report => exact Nat.le_of_eq report.attached.symm

theorem frameTo?_of_unserved {console : Console} {receiver : Nat}
    (unserved : console.sink ≠ some ⟨receiver, true⟩) (operation : Operation) :
    (console.perform operation).frameTo? receiver = none := by
  cases delivered : (console.perform operation).delivered with
  | none =>
      rw [Report.frameTo?, delivered]
      rfl
  | some delivery =>
      have plugged := (drawn_of_delivered delivered).2
      have apart : delivery.receiver ≠ receiver := fun same => unserved (same ▸ plugged)
      simp [Report.frameTo?, delivered, apart]

theorem framesTo_of_unattached {console : Console} {receiver : Nat} (numbered : console.Numbered)
    (operations : List Operation) (new : (console.after operations).attached ≤ receiver) :
    console.attached ≤ receiver ∧ framesTo receiver (console.reports operations) = [] := by
  induction operations generalizing console with
  | nil => exact ⟨new, rfl⟩
  | cons operation rest ih =>
      obtain ⟨unattached, none⟩ := ih (numbered.step console operation) new
      have before := Nat.le_trans (console.attached_le_perform operation) unattached
      have unserved : console.sink ≠ some ⟨receiver, true⟩ := fun serving =>
        absurd (numbered _ serving) (Nat.not_lt.mpr before)
      refine ⟨before, ?_⟩
      rw [reports, framesTo_cons, frameTo?_of_unserved unserved, none]
      rfl

/-! ## While it is there, and afterwards -/

theorem serving_step {console : Console} {receiver : Nat} {operation : Operation}
    (serving : console.sink = some ⟨receiver, true⟩)
    (keeps : operation.keeps receiver = true) :
    (console.perform operation).console.sink = some ⟨receiver, true⟩ ∧
      (console.perform operation).frameTo? receiver = console.drawn? operation ∧
      (console.perform operation).notices.count .receiverGone = 0 := by
  cases console.sinkStep operation with
  | attached asked report =>
      subst asked
      cases keeps
  | dropped other asked report =>
      subst asked
      have apart : receiver ≠ other := fun same => by simp [Operation.keeps, same] at keeps
      refine ⟨?_, rfl, rfl⟩
      rw [report.sink, serving]
      simp [Sink.without, apart]
  | taken holder frame drawn sink report =>
      rw [serving] at sink
      cases sink
      refine ⟨report.sink, ?_, report.losses⟩
      rw [Report.frameTo?, report.delivered, drawn, Option.filter_some,
        if_pos (beq_self_eq_true receiver)]
      rfl
  | unplugged frame drawn sink report | missed holder frame drawn sink report =>
      rw [serving] at sink
      cases sink
  | other undrawn report =>
      refine ⟨report.sink.trans serving, ?_, report.losses⟩
      rw [Report.frameTo?, report.delivered, undrawn]
      rfl

/-- A receiver that was attached once and takes no frames any more. -/
structure Retired (console : Console) (receiver : Nat) : Prop where
  known : receiver < console.attached
  unserved : console.sink ≠ some ⟨receiver, true⟩

theorem Retired.step {console : Console} {receiver : Nat} (retired : console.Retired receiver)
    (operation : Operation) : (console.perform operation).console.Retired receiver := by
  obtain ⟨known, unserved⟩ := retired
  cases console.sinkStep operation with
  | attached asked report =>
      refine ⟨by rw [report.attached]; omega, fun serving => ?_⟩
      rw [report.sink] at serving
      have same : console.attached = receiver := congrArg Sink.receiver (Option.some.inj serving)
      omega
  | dropped other asked report =>
      refine ⟨by rw [report.attached]; exact known, fun serving => ?_⟩
      rw [report.sink] at serving
      obtain ⟨sink, plugged, left⟩ := Option.map_eq_some_iff.mp serving
      unfold Sink.without at left
      split at left
      · cases congrArg Sink.connected left
      · exact unserved (left ▸ plugged)
  | unplugged frame drawn sink report | missed holder frame drawn sink report =>
      refine ⟨by rw [report.attached]; exact known, ?_⟩
      rw [report.sink]
      exact nofun
  | taken holder frame drawn sink report =>
      refine ⟨by rw [report.attached]; exact known, ?_⟩
      rw [report.sink, ← sink]
      exact unserved
  | other undrawn report =>
      refine ⟨by rw [report.attached]; exact known, ?_⟩
      rw [report.sink]
      exact unserved

theorem framesTo_of_retired {console : Console} {receiver : Nat}
    (retired : console.Retired receiver) (operations : List Operation) :
    framesTo receiver (console.reports operations) = [] := by
  induction operations generalizing console with
  | nil => rfl
  | cons operation rest ih =>
      have later := ih (retired.step operation)
      rw [reports, framesTo_cons, frameTo?_of_unserved retired.unserved, later]
      rfl

theorem not_keeps_iff {receiver : Nat} {operation : Operation} :
    ¬ operation.keeps receiver = true ↔
      operation = .attach ∨ operation = .dropReceiver receiver := by
  cases operation <;> simp [Operation.keeps]

/-- Until a receiver is lost or replaced it takes every frame that is drawn, and afterwards
none. -/
theorem framesTo_of_serving {console : Console} {receiver : Nat}
    (serving : console.sink = some ⟨receiver, true⟩) (known : receiver < console.attached)
    (operations : List Operation) :
    framesTo receiver (console.reports operations) =
      console.drawings (operations.takeWhile (Operation.keeps receiver)) := by
  induction operations generalizing console with
  | nil => rfl
  | cons operation rest ih =>
      have known' := Nat.lt_of_lt_of_le known (console.attached_le_perform operation)
      by_cases keeps : operation.keeps receiver = true
      · obtain ⟨still, frame, _⟩ := serving_step serving keeps
        rw [List.takeWhile_cons_of_pos keeps, reports, framesTo_cons, frame, ih still known']
        rfl
      · have retired : (console.perform operation).console.Retired receiver := by
          refine ⟨known', ?_⟩
          rcases not_keeps_iff.mp keeps with rfl | rfl
          · intro still
            have same : console.attached = receiver :=
              congrArg Sink.receiver (Option.some.inj still)
            omega
          · show (console.sink.map (Sink.without receiver)) ≠ _
            rw [serving]
            simp [Sink.without]
        have now : (console.perform operation).frameTo? receiver = none := by
          rcases not_keeps_iff.mp keeps with rfl | rfl <;> rfl
        rw [List.takeWhile_cons_of_neg keeps, reports, framesTo_cons, now,
          framesTo_of_retired retired]
        rfl

/-! ## The end of its term -/

theorem serving_run {console : Console} {receiver : Nat} {operations : List Operation}
    (serving : console.sink = some ⟨receiver, true⟩)
    (kept : ∀ operation ∈ operations, operation.keeps receiver = true) :
    (console.after operations).sink = some ⟨receiver, true⟩ ∧
      losses (console.reports operations) = 0 := by
  induction operations generalizing console with
  | nil => exact ⟨serving, rfl⟩
  | cons operation rest ih =>
      obtain ⟨now, later⟩ := List.forall_mem_cons.mp kept
      obtain ⟨still, _, quiet⟩ := serving_step serving now
      obtain ⟨final, rest⟩ := ih still later
      refine ⟨final, ?_⟩
      rw [reports, losses_cons, quiet, rest]

theorem detached_run {console : Console} {operations : List Operation}
    (detached : console.sink = none) (alone : .attach ∉ operations) :
    (console.after operations).sink = none ∧ losses (console.reports operations) = 0 := by
  induction operations generalizing console with
  | nil => exact ⟨detached, rfl⟩
  | cons operation rest ih =>
      have alone' := List.not_mem_of_not_mem_cons alone
      have left : (console.perform operation).console.sink = none ∧
          (console.perform operation).notices.count .receiverGone = 0 := by
        cases console.sinkStep operation with
        | attached asked report =>
            subst asked
            exact absurd List.mem_cons_self alone
        | dropped receiver asked report => exact ⟨by rw [report.sink, detached]; rfl, report.losses⟩
        | unplugged frame drawn sink report => exact ⟨report.sink, report.losses⟩
        | taken receiver frame drawn sink report | missed receiver frame drawn sink report =>
            rw [detached] at sink
            cases sink
        | other undrawn report => exact ⟨report.sink.trans detached, report.losses⟩
      obtain ⟨final, quiet⟩ := ih left.1 alone'
      refine ⟨final, ?_⟩
      rw [reports, losses_cons, left.2, quiet]

/-- The first draw for a receiver that is gone notices it, and no later one does. -/
theorem lost_run {console : Console} {receiver : Nat} {operations : List Operation}
    (lost : console.sink = some ⟨receiver, false⟩) (alone : .attach ∉ operations) :
    (console.after operations).sink =
        (if console.drawings operations = [] then some ⟨receiver, false⟩ else none) ∧
      losses (console.reports operations) = min 1 (console.drawings operations).length := by
  induction operations generalizing console with
  | nil => exact ⟨lost, rfl⟩
  | cons operation rest ih =>
      have alone' := List.not_mem_of_not_mem_cons alone
      -- Up to the first draw nothing happens; from then on there is no sink any more.
      have first : (console.drawn? operation = none ∧
          (console.perform operation).console.sink = some ⟨receiver, false⟩ ∧
            (console.perform operation).notices.count .receiverGone = 0) ∨
          ∃ frame, console.drawn? operation = some frame ∧
            (console.perform operation).console.sink = none ∧
              (console.perform operation).notices.count .receiverGone = 1 := by
        cases console.sinkStep operation with
        | attached asked report =>
            subst asked
            exact absurd List.mem_cons_self alone
        | dropped other asked report =>
            subst asked
            refine Or.inl ⟨rfl, ?_, report.losses⟩
            rw [report.sink, lost, Option.map_some, Sink.without, ite_self]
        | unplugged frame drawn sink report | taken other frame drawn sink report =>
            rw [lost] at sink
            cases sink
        | missed other frame drawn sink report =>
            exact Or.inr ⟨frame, drawn, report.sink, report.losses⟩
        | other undrawn report => exact Or.inl ⟨undrawn, report.sink.trans lost, report.losses⟩
      rw [drawings, reports, losses_cons]
      rcases first with ⟨undrawn, still, quiet⟩ | ⟨frame, drawn, detached, noticed⟩
      · rw [undrawn, quiet, Nat.zero_add]
        exact ih still alone'
      · obtain ⟨final, quiet⟩ := detached_run detached alone'
        rw [drawn, noticed, quiet]
        exact ⟨final, by simp⟩

theorem losses_attach {console : Console} {served : List Operation}
    (kept : ∀ operation ∈ served, operation.keeps console.attached = true) :
    losses (console.reports (.attach :: served)) = 0 := by
  have serving : (console.perform .attach).console.sink = some ⟨console.attached, true⟩ := rfl
  have quiet := (serving_run serving kept).2
  rw [reports, losses_cons, quiet]
  rfl

theorem lost_term {console : Console} {receiver : Nat} {served lost : List Operation}
    (serving : console.sink = some ⟨receiver, true⟩)
    (kept : ∀ operation ∈ served, operation.keeps receiver = true) (alone : .attach ∉ lost) :
    let gone := console.after (served ++ [.dropReceiver receiver])
    (gone.after lost).sink =
        (if gone.drawings lost = [] then some ⟨receiver, false⟩ else none) ∧
      losses (console.reports (served ++ .dropReceiver receiver :: lost)) =
        min 1 (gone.drawings lost).length := by
  intro gone
  obtain ⟨still, quiet⟩ := serving_run serving kept
  have unplugged : gone.sink = some ⟨receiver, false⟩ := by
    have left : gone.sink = (console.after served).sink.map (Sink.without receiver) := by
      show (console.after (served ++ [.dropReceiver receiver])).sink = _
      rw [after_append]
      rfl
    rw [left, still]
    simp [Sink.without]
  have silent : losses ((console.after served).reports [.dropReceiver receiver]) = 0 := rfl
  obtain ⟨final, noticed⟩ := lost_run unplugged alone
  refine ⟨final, ?_⟩
  rw [List.append_cons, reports_append, losses_append, noticed, reports_append, losses_append,
    quiet, silent, Nat.zero_add]

end Console

theorem Constructed.numbered {start : Report} (constructed : Constructed start) :
    start.console.Numbered := by
  cases constructed with
  | create => exact nofun
  | withProgram program report accepted =>
      rw [Console.withProgram_eq_ok accepted]
      have created : Console.create.Numbered := nofun
      exact created.step Console.create (.load program)

/-- A receiver takes exactly the frames that are drawn between its attachment and its loss
or the attachment of the next one, in order. Only a draw makes a frame, and it does so
whatever is in the sink. A lost receiver costs one warning, at the next draw, and none if
there is no draw until the next attachment. -/
theorem frames_reach_their_receiver {start : Report} (constructed : Constructed start)
    (earlier : List Operation) :
    let console := start.console.after earlier
    let receiver := console.attached
    let plugged := (console.perform .attach).console
    (console.perform .attach).result = .receiver receiver ∧
    (∀ later, framesTo receiver (start.console.reports (earlier ++ .attach :: later)) =
      plugged.drawings (later.takeWhile (Operation.keeps receiver))) ∧
    (∀ operation delivery, (console.perform operation).delivered = some delivery →
      console.drawn? operation = some delivery.frame) ∧
    (∀ opcode random, console.machine.fault = none → console.machine.fetch = .ok opcode →
      opcode.kind = 0xD →
      ((console.cycle random).result = .done ↔
        console.machine.index.toNat + opcode.n.val ≤ 4096) ∧
      ((console.cycle random).result = .done → console.Draws (console.cycle random))) ∧
    (∀ served, (∀ operation ∈ served, operation.keeps receiver = true) →
      losses (console.reports (.attach :: served)) = 0 ∧
      ∀ lost, .attach ∉ lost →
        let gone := plugged.after (served ++ [.dropReceiver receiver])
        (gone.after lost).sink =
            (if gone.drawings lost = [] then some ⟨receiver, false⟩ else none) ∧
          losses (plugged.reports (served ++ .dropReceiver receiver :: lost)) =
            min 1 (gone.drawings lost).length) := by
  intro console receiver plugged
  have serving : plugged.sink = some ⟨receiver, true⟩ := rfl
  refine ⟨rfl, ?_, ?_, ?_, ?_⟩
  · intro later
    have before := (Console.framesTo_of_unattached constructed.numbered earlier
      (Nat.le_refl receiver)).2
    have known : receiver < plugged.attached := Nat.lt_succ_self _
    rw [Console.reports_append, framesTo_append, before]
    exact Console.framesTo_of_serving serving known later
  · intro operation delivery delivered
    exact (Console.drawn_of_delivered delivered).1
  · intro opcode random running fetched isDraw
    exact Console.draw_spec running fetched isDraw random
  · intro served kept
    exact ⟨Console.losses_attach kept, fun lost alone => Console.lost_term serving kept alone⟩

/-- Points to the glyph of zero and draws it, clears the display, draws a row of the last byte of
memory, and fails to draw two rows there. -/
def failingBehindDraw : List UInt8 :=
  [0xA0, 0x50, 0xD0, 0x05, 0x00, 0xE0, 0xAF, 0xFF, 0xD0, 0x01, 0xD0, 0x02]

def zeroRows : List (List Char) :=
  ["████████", "██    ██", "██    ██", "██    ██", "████████"].map
      (fun shown => shown.toList ++ List.replicate 120 ' ') ++
    List.replicate 27 (List.replicate 128 ' ')

def zeroFrame : String :=
  String.ofList (['\n'].intercalate zeroRows)

/-- The frame of a display that is lit where the glyph of zero covers its corner. -/
theorem render_zero :
    Frame.render (.ofCells (Sprite.covers 0 0 [0xF0, 0x90, 0x90, 0x90, 0xF0])) = zeroFrame := by
  refine congrArg (fun rows => String.ofList (['\n'].intercalate rows)) ?_
  simp only [Frame.rows, Frame.rowPixels, Display.get_ofCells]
  decide +kernel

def pointingToZero : Machine :=
  { (Console.create.load failingBehindDraw).console.machine.advance with
    index := 0x050 }

theorem opcodes_failingBehindDraw :
    (Console.create.load failingBehindDraw).console.machine.opcodeAtPc = ⟨0xA, 0x0, 0x5, 0x0⟩ ∧
      pointingToZero.opcodeAtPc = ⟨0xD, 0x0, 0x0, 0x5⟩ ∧
      pointingToZero.bytesAtIndex 5 = [0xF0, 0x90, 0x90, 0x90, 0xF0] := by
  decide +kernel

section Zero

variable {console : Console}

theorem Console.cycle_pointing
    (loaded : console.machine = (create.load failingBehindDraw).console.machine) :
    (console.cycle 0).console.machine = pointingToZero ∧ console.drawn? (.cycle 0) = none := by
  have opcode := opcodes_failingBehindDraw.1
  rw [← loaded] at opcode
  have decoded : console.machine.opcodeAtPc.instruction = .setIndex 0x050 := by
    rw [opcode]
    exact Opcode.instruction_of_encodes ⟨rfl, rfl⟩
  have fits : console.machine.advance.Fits console.machine.opcodeAtPc.instruction := by
    rw [decoded]
    exact Machine.fits_of_no_reach rfl
  constructor
  · rw [machine_cycle_of_fits (by rw [loaded]; rfl) (by rw [loaded]; decide) fits, decoded, loaded]
    rfl
  · rw [drawn?_cycle]
    refine if_neg fun drew => ?_
    have kind := (Machine.drew_cycle_iff.mp drew).2
    rw [opcode] at kind
    cases kind

theorem Console.drawn?_zero (pointed : console.machine = pointingToZero) :
    console.drawn? (.cycle 0) = some zeroFrame := by
  obtain ⟨-, opcode, glyph⟩ := opcodes_failingBehindDraw
  have fetched : console.machine.fetch = .ok ⟨0xD, 0x0, 0x0, 0x5⟩ := by
    rw [pointed]
    exact Machine.fetch_eq_ok_iff.mpr ⟨by decide, opcode⟩
  have running : console.machine.fault = none := by
    rw [pointed]
    rfl
  have inside : console.machine.index.toNat + 5 ≤ 4096 := by
    rw [pointed]
    decide
  rw [drawn?_of_draw running fetched inside, pointed, ← render_zero]
  refine congrArg (fun lit => some (Frame.render (.ofCells lit))) (funext fun cell => ?_)
  have dark : pointingToZero.display.get cell = false := Display.get_blank cell
  rw [dark, Bool.false_xor]
  exact congrArg (fun rows => Sprite.covers 0 0 rows cell) glyph

theorem Console.drawings_zero
    (loaded : console.machine = (create.load failingBehindDraw).console.machine) :
    console.drawings [.cycle 0, .cycle 0] = [zeroFrame] := by
  obtain ⟨pointed, nothing⟩ := cycle_pointing loaded
  rw [drawings, nothing, drawings, perform, drawn?_zero pointed]
  rfl

end Zero

theorem lost_after_one_frame :
    Constructed (Console.create.load failingBehindDraw) ∧
    let start := (Console.create.load failingBehindDraw).console
    let plugged := ((start.after [.attach]).perform .attach).console
    framesTo 1 (start.reports ([.attach] ++ .attach ::
        [.cycle 0, .cycle 0, .dropReceiver 1, .cycle 0, .cycle 0, .cycle 0])) = [zeroFrame] ∧
      losses (plugged.reports ([.cycle 0, .cycle 0] ++ .dropReceiver 1 ::
        [.cycle 0, .cycle 0, .cycle 0])) = 1 := by
  have constructed : Constructed (Console.create.load failingBehindDraw) :=
    .withProgram failingBehindDraw _ (Console.withProgram_of_fits (by decide))
  obtain ⟨_, frames, _, _, lost⟩ := frames_reach_their_receiver constructed [.attach]
  have noticed := ((lost [.cycle 0, .cycle 0] (by decide)).2
    [.cycle 0, .cycle 0, .cycle 0] (by decide)).2
  refine ⟨constructed, (frames _).trans (Console.drawings_zero rfl), noticed.trans ?_⟩
  decide +kernel

end Chip8

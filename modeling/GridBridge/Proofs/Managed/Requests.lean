import GridBridge.Proofs.Codec.Cursor
import GridBridge.Proofs.Managed.Deeds

/-!
# Requests of any bytes

A request that reaches the managed side need not be the request of a call. One with too few bytes is an
exception and changes nothing (`execute_short`). In any other the first bytes are the request of one call,
and that call is carried out whatever comes behind them (`execute_of_take`). A worker that runs the task
of such a request reports the one or the other (`runTask_of_ok`, `runTask_of_error`).
-/

namespace GridBridge.Managed

open Protocol Codec

variable {op : Opcode} {bytes : List UInt8} {rt : Runtime} {task : Task}

/-- Any four bytes are a number on the wire. -/
theorem exists_int_wire (hfour : bytes.length = 4) : ∃ value, (Field.int value).wire = bytes := by
  refine ⟨Kind.int.decode bytes, (Kind.int.wire_decode bytes hfour).trans ?_⟩
  rw [show (Kind.int == Kind.bool) = false from rfl, rewritten_false, List.map_id]

/-- **Enough bytes begin with the request of a call.** -/
theorem exists_call (henough : op.requestLength ≤ bytes.length) :
    ∃ call : CacheCall, call.op = op ∧ call.wire = bytes.take op.requestLength := by
  -- by operation: any four bytes are an integer's, so a request of enough bytes is always some call's
  cases op with
  | put =>
    have height : 8 ≤ bytes.length := henough
    have hfour : (bytes.take 4).length = 4 := by
      rw [List.length_take]
      omega
    have hfour' : ((bytes.drop 4).take 4).length = 4 := by
      rw [List.length_take, List.length_drop]
      omega
    obtain ⟨key, hfirst⟩ := exists_int_wire hfour
    obtain ⟨value, hsecond⟩ := exists_int_wire hfour'
    refine ⟨.put key value, rfl, ?_⟩
    show (Field.int key).wire ++ ((Field.int value).wire ++ []) = bytes.take (4 + 4)
    rw [hfirst, hsecond, List.append_nil, ← List.take_add]
  | remove =>
    have hfour : (bytes.take 4).length = 4 := by
      have henough : 4 ≤ bytes.length := henough
      rw [List.length_take]
      omega
    obtain ⟨key, hfirst⟩ := exists_int_wire hfour
    refine ⟨.remove key, rfl, ?_⟩
    show (Field.int key).wire ++ [] = bytes.take 4
    rw [hfirst, List.append_nil]
  | size => exact ⟨.size, rfl, rfl⟩

/-- The exception of a request that is too short. -/
def malformed (op : Opcode) (length : Nat) : Thrown where
  cls := .illegalArgument
  message := s!"Malformed {op.label} request: {length} bytes"

theorem execute_short (grid : Grid) (store : StoreId) (hshort : bytes.length < op.requestLength) :
    grid.execute op store bytes = .error (.thrown (malformed op bytes.length)) := by
  unfold Grid.execute applyOp
  rw [if_pos hshort]
  rfl

/-- A request that begins with that of a call is carried out as that call. -/
theorem execute_of_take (grid : Grid) (store : StoreId) {call : CacheCall}
    (hbegins : call.wire = bytes.take call.op.requestLength) :
    grid.execute call.op store bytes =
      .ok (grid.setContents store (call.apply (grid.contents store)).1,
        (call.apply (grid.contents store)).2) := by
  have hsplit : bytes = call.wire ++ bytes.drop call.op.requestLength := by
    rw [hbegins, List.take_append_drop]
  unfold Grid.execute
  rw [hsplit, applyOp_wire_append]
  rfl

/-! ## Tasks -/

/-- A worker hands the completion of a task to the entry, if one is bound: once, or twice if duplicates
are switched on. -/
def Runtime.complete (rt : Runtime) (task : Task) (completion : Completion) : Runtime :=
  match rt.signal? task.callback task.data completion with
  | none => rt
  | some signal => rt.send (if rt.faults.duplicateCompletions then [signal, signal] else [signal])

theorem runTask_of_ok {grid : Grid} {result : Int64}
    (hdone : rt.grid.execute task.op task.store task.request = .ok (grid, result)) :
    rt.runTask task = Runtime.complete { rt with grid } task ⟨resultOk, result.toUInt64⟩ := by
  unfold Runtime.runTask
  rw [hdone]
  rfl

theorem runTask_of_error {stop : Stop}
    (hfailed : rt.grid.execute task.op task.store task.request = .error stop) :
    rt.runTask task = rt.complete task ⟨resultErr, 0⟩ := by
  unfold Runtime.runTask
  rw [hfailed]
  rfl

end GridBridge.Managed

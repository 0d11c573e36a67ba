import GridBridge.Proofs.Codec.RoundTrip
import GridBridge.Proofs.Managed.Desk
import GridBridge.Proofs.Managed.Grid
import GridBridge.Proofs.Seam.Makes

/-!
# Deeds: what each method does to a desk
-/

namespace GridBridge.Managed

open Protocol Seam Codec

variable {files : Files.FileSystem} {thread : ThreadId} {desk : Desk} {rt : Runtime}

/-- An argument that is a string or null is read as one. -/
theorem run_stringArg {args : List ArgValue} {index : Nat} {text : Option String}
    (h : args[index]? = some (.object (text.map .str))) :
    (Code.stringArg args index).run.run rt = (.ok text, rt) := by
  unfold Code.stringArg Code.arg
  rw [h]
  cases text <;> rfl

/-- So is one that is known to be a string. -/
theorem run_stringArg_some {args : List ArgValue} {index : Nat} {text : String}
    (h : args[index]? = some (.object (some (.str text)))) :
    (Code.stringArg args index).run.run rt = (.ok (some text), rt) := by
  unfold Code.stringArg Code.arg
  rw [h]
  rfl

/-! ## Instances -/

/-- An instance that is running is found. -/
theorem does_findInstance {name : Option String} (hrunning : desk.grid.isRunning name = true) :
    Does files thread desk .ignitionIgnite none [.object (name.map .str)]
      (.ok (.object (some (.grid name)))) desk := by
  intro rt hshows
  refine ⟨rt, ?_, hshows⟩
  show (Code.findInstance _).run.run rt = _
  unfold Code.findInstance
  rw [run_bind_of_ok (run_stringArg rfl), run_get_bind, hshows.grid, if_pos hrunning]
  rfl

/-- One that is not is thrown about. -/
theorem does_not_findInstance (files : Files.FileSystem) (thread : ThreadId) (desk : Desk)
    {name : Option String} (hrunning : desk.grid.isRunning name = false) :
    ∃ thrown, Does files thread desk .ignitionIgnite none [.object (name.map .str)]
      (.error (.thrown thrown)) desk := by
  apply Exists.intro
  intro rt hshows
  refine ⟨rt, ?_, hshows⟩
  show (Code.findInstance _).run.run rt = _
  unfold Code.findInstance
  rw [run_bind_of_ok (run_stringArg rfl), run_get_bind, hshows.grid, if_neg (by simp [hrunning])]
  rfl

/-- Starting reads its two texts. What it does then is up to the file and the name. -/
theorem run_startInstance (files : Files.FileSystem) (thread : ThreadId) (desk : Desk) (path : String)
    (name : Option String) (rest : List ArgValue) : ∃ noFile taken : Thrown,
      ∀ rt, Shows files thread desk rt →
        (Code.startInstance (.object (some (.str path)) :: .object (name.map .str) :: rest)).run.run rt =
          if files.isFile (.ofString path) then
            if desk.grid.isRunning name then (.error (.thrown taken), rt)
            else (.ok (.object (some (.grid name))), { rt with grid := rt.grid.start name path })
          else (.error (.thrown noFile), rt) := by
  apply Exists.intro
  apply Exists.intro
  intro rt hshows
  unfold Code.startInstance
  rw [run_bind_of_ok (run_stringArg_some rfl), run_bind_of_ok (run_stringArg rfl), run_get_bind,
    hshows.files, Option.filter_some]
  -- the file is looked at first; only an existing one gets as far as the name
  cases files.isFile (.ofString path) with
  | false => rfl
  | true =>
    simp only [if_true, hshows.grid, hshows.faults]
    cases desk.grid.isRunning name <;> rfl

/-- An instance that is started: the file is there, and no instance has the name. -/
theorem does_startInstance {path : String} {name : Option String} {rest : List ArgValue}
    (hfile : files.isFile (.ofString path) = true) (hrunning : desk.grid.isRunning name = false) :
    Does files thread desk .ignitionExStart none (.object (some (.str path)) ::
        .object (name.map .str) :: rest)
      (.ok (.object (some (.grid name)))) { desk with grid := desk.grid.start name path } := by
  intro rt hshows
  obtain ⟨noFile, taken, hruns⟩ := run_startInstance files thread desk path name rest
  have hran := hruns rt hshows
  rw [if_pos hfile, if_neg (by simp [hrunning])] at hran
  exact ⟨_, hran, { hshows with grid := by rw [hshows.grid] }⟩

/-- A file that is missing and a name that is taken are both thrown about, and nothing is started. -/
theorem does_not_startInstance (thread : ThreadId) (desk : Desk) {path : String}
    {name : Option String} (rest : List ArgValue)
    (hrefused : files.isFile (.ofString path) = false ∨ desk.grid.isRunning name = true) :
    ∃ thrown, Does files thread desk .ignitionExStart none (.object (some (.str path)) ::
        .object (name.map .str) :: rest) (.error (.thrown thrown)) desk := by
  obtain ⟨noFile, taken, hruns⟩ := run_startInstance files thread desk path name rest
  cases hfile : files.isFile (.ofString path) with
  | false =>
    refine ⟨noFile, fun rt hshows => ⟨rt, (hruns rt hshows).trans ?_, hshows⟩⟩
    rw [if_neg (by simp [hfile])]
  | true =>
    have hrunning : desk.grid.isRunning name = true := by simpa [hfile] using hrefused
    refine ⟨taken, fun rt hshows => ⟨rt, (hruns rt hshows).trans ?_, hshows⟩⟩
    rw [if_pos hfile, if_pos hrunning]

/-- A running instance has a processor. -/
theorem does_interop {name : Option String} (hrunning : desk.grid.isRunning name = true) :
    Does files thread desk .utilsInterop none [.object (some (.grid name))]
      (.ok (.object (some (.processor name)))) desk := by
  intro rt hshows
  refine ⟨rt, ?_, hshows⟩
  show (Code.interop _).run.run rt = _
  unfold Code.interop
  have harg : (Code.arg [.object (some (.grid name))] 0).run.run rt =
      (.ok (.object (some (.grid name))), rt) := rfl
  rw [run_bind_of_ok harg]
  simp only [run_get_bind, hshows.grid, if_pos hrunning]
  rfl

/-! ## Caches -/

/-- A cache is opened under its name, or made. -/
theorem does_openCache {instanceName name : Option String} {i : GridInstance} {store : StoreId}
    {grid : Grid} (hfound : desk.grid.instance? instanceName = some i) (hnamed : name ≠ some "")
    (hopened : desk.grid.openCache instanceName i name = (store, grid)) :
    Does files thread desk .processorCache (some (.processor instanceName))
      [.object (name.map .str)] (.ok (.object (some (.cache store)))) { desk with grid } := by
  intro rt hshows
  refine ⟨{ rt with grid }, ?_, { hshows with grid := rfl }⟩
  show (Code.openCache _ _).run.run rt = _
  unfold Code.openCache
  have hself : (Code.receiver (some (.processor instanceName))).run.run rt =
      (.ok (.processor instanceName), rt) := rfl
  have harg : (Code.stringArg [.object (name.map .str)] 0).run.run rt = (.ok name, rt) :=
    run_stringArg rfl
  rw [run_bind_of_ok hself]
  simp only [run_bind_of_ok harg, if_neg hnamed, run_get_bind, hshows.grid, hfound, hopened]
  rfl

/-- Under the empty name there is none. -/
theorem does_openCache_unnamed {instanceName : Option String} :
    Does files thread desk .processorCache (some (.processor instanceName))
      [.object ((some "").map .str)] (.ok (.object none)) desk :=
  fun rt hshows => ⟨rt, rfl, hshows⟩

/-! ## Operations on contents -/

/-- An operation with its operands. -/
inductive CacheCall where
  | put (key value : Int32)
  | remove (key : Int32)
  | size
  deriving DecidableEq, Repr

namespace CacheCall

def op : CacheCall → Opcode
  | .put .. => .put
  | .remove _ => .remove
  | .size => .size

/-- What the request consists of. -/
def fields : CacheCall → List Field
  | .put key value => [.int key, .int value]
  | .remove key => [.int key]
  | .size => []

/-- The request on the wire. -/
def wire (call : CacheCall) : List UInt8 := call.fields.flatMap Field.wire

/-- The contents after the call, and its result. -/
def apply : CacheCall → Contents → Contents × Int64
  | .put key value, contents => (contents.insert key value, 1)
  | .remove key, contents => (contents.erase key, if contents.contains key then 1 else 0)
  | .size, contents => (contents, Int64.ofNat contents.size)

/-- A request is as long as its operation wants it. -/
theorem length_wire (call : CacheCall) : call.wire.length = call.op.requestLength := by
  unfold wire
  rw [Codec.length_wire]
  cases call <;> rfl

/-- So its length is one that a signed word of 32 bits holds. -/
theorem small_wire (call : CacheCall) : call.wire.length < 2 ^ 31 := by
  rw [call.length_wire]
  generalize call.op = op
  cases op <;> decide

end CacheCall

/-- A key that stands before other fields is read. -/
theorem readKey_wire (key : Int32) (behind : List UInt8) (r : Reader)
    (h : r.data.toList.drop r.position = (Field.int key).wire ++ behind) :
    ∃ next, readKey r = .ok (key, next) ∧ next.data.toList.drop next.position = behind := by
  obtain ⟨value, next, hread, hsame, hbehind⟩ := Reader.read_wire (.int key) behind r h
  have hsame : value = key := Field.int.inj hsame
  rw [hsame] at hread
  exact ⟨next, readKey_eq hread, hbehind⟩

/-- The managed end does what the call says with the request that the call consists of, and does not
look at what comes behind it. -/
theorem applyOp_wire_append (call : CacheCall) (behind : List UInt8) (contents : Contents) :
    applyOp call.op contents (call.wire ++ behind) = .ok (call.apply contents) := by
  have hstart (bytes : List UInt8) :
      (Reader.ofBytes bytes).data.toList.drop (Reader.ofBytes bytes).position = bytes := rfl
  have henough : ¬ (call.wire ++ behind).length < call.op.requestLength := by
    rw [List.length_append, call.length_wire]
    omega
  unfold applyOp
  rw [if_neg henough]
  cases call with
  | put key value =>
    -- the key is read first, and the value from where it ends
    have hsplit : (CacheCall.put key value).wire ++ behind =
        (Field.int key).wire ++ ((Field.int value).wire ++ behind) := by
      simp [CacheCall.wire, CacheCall.fields]
    obtain ⟨next, hfirst, hrest⟩ := readKey_wire key _ _ ((hstart _).trans hsplit)
    obtain ⟨last, hsecond, _⟩ := readKey_wire value behind next hrest
    show (readKey _ >>= fun _ => _) = _
    rw [hfirst]
    show (readKey next >>= fun _ => _) = _
    rw [hsecond]
    rfl
  | remove key =>
    have hsplit : (CacheCall.remove key).wire ++ behind = (Field.int key).wire ++ behind := by
      simp [CacheCall.wire, CacheCall.fields]
    obtain ⟨next, hfirst, _⟩ := readKey_wire key _ _ ((hstart _).trans hsplit)
    show (readKey _ >>= fun _ => _) = _
    rw [hfirst]
    rfl
  | size => rfl

/-- The same of a request with nothing behind it. -/
theorem applyOp_wire (call : CacheCall) (contents : Contents) :
    applyOp call.op contents call.wire = .ok (call.apply contents) := by
  simpa using applyOp_wire_append call [] contents

/-! ## Calls on a cache -/

/-- The arguments that carry an operation: code, address and length of the request. -/
def requestArgs (op : Opcode) (bytes : List UInt8) : List ArgValue :=
  [.int op.code, .long (.buffer bytes), .int (Int32.ofNat bytes.length)]

def CacheCall.args (call : CacheCall) : List ArgValue := requestArgs call.op call.wire

/-- The desk after a call on the contents of a store. -/
def Desk.done (desk : Desk) (call : CacheCall) (store : StoreId) : Desk :=
  { desk with grid := desk.grid.setContents store (call.apply (desk.grid.contents store)).1 }

/-- A runtime whose store was changed by a call shows the desk after the call. -/
theorem Shows.done (h : Shows files thread desk rt) (call : CacheCall) (store : StoreId) :
    Shows files thread (desk.done call store) { rt with
      grid := rt.grid.setContents store (call.apply (rt.grid.contents store)).1 } :=
  { h with grid := by rw [h.grid]; rfl }

/-- The request is copied out of the buffer in full. -/
theorem run_request {bytes : List UInt8} (hsmall : bytes.length < 2 ^ 31) :
    (Code.request (.buffer bytes) (Int32.ofNat bytes.length)).run.run rt = (.ok bytes, rt) := by
  have hlength : (Int32.ofNat bytes.length).toInt = bytes.length := Int32.toInt_ofNat_of_lt hsmall
  have hnonnegative : ¬ Int32.ofNat bytes.length < 0 := by
    rw [Int32.lt_iff_toInt_lt, hlength]
    exact Int.not_lt.mpr (Int.natCast_nonneg _)
  unfold Code.request
  rw [if_neg hnonnegative]
  -- a request without bytes is not copied at all
  by_cases hnone : Int32.ofNat bytes.length = 0
  · have hempty : bytes = [] := by
      rw [hnone] at hlength
      exact List.length_eq_zero_iff.mp (by simpa using hlength.symm)
    rw [if_pos hnone, hempty]
    rfl
  · have hcopied : bytes.take (Int32.ofNat bytes.length).toInt.toNat = bytes := by
      rw [hlength, Int.toNat_natCast, List.take_length]
    rw [if_neg hnone]
    dsimp only
    rw [hcopied]
    rfl

/-- **The managed side takes what the bridge sends**: the opcode in a shape that it supports, and every
byte of the request. -/
theorem run_operation {op : Opcode} {bytes : List UInt8} (hsmall : bytes.length < 2 ^ 31)
    (rest : List ArgValue) {shape : Shape} {store : StoreId} (hsupported : op.supports shape = true) :
    (Code.operation (some (.cache store)) (requestArgs op bytes ++ rest) shape).run.run rt =
      (.ok (store, op, bytes), rt) := by
  have hself : (Code.cacheReceiver (some (.cache store))).run.run rt = (.ok store, rt) := rfl
  have hcode : (Code.intArg (requestArgs op bytes ++ rest) 0).run.run rt = (.ok op.code, rt) := rfl
  -- the code that was sent is decoded as the operation that it stands for
  have hdecoded : (Code.decodeOp op.code shape).run.run rt = (.ok op, rt) := by
    unfold Code.decodeOp
    rw [Opcode.ofCode?_code]
    dsimp only
    rw [if_pos hsupported]
    rfl
  have haddress : (Code.longArg (requestArgs op bytes ++ rest) 1).run.run rt =
      (.ok (.buffer bytes), rt) := rfl
  have hlength : (Code.intArg (requestArgs op bytes ++ rest) 2).run.run rt =
      (.ok (Int32.ofNat bytes.length), rt) := rfl
  unfold Code.operation
  rw [run_bind_of_ok hself, run_bind_of_ok hcode, run_bind_of_ok hdecoded, run_bind_of_ok haddress,
    run_bind_of_ok hlength, run_bind_of_ok (run_request hsmall)]
  rfl

/-- The request of a call, carried out on a store. -/
theorem execute_wire (grid : Grid) (call : CacheCall) (store : StoreId) :
    grid.execute call.op store call.wire =
      .ok (grid.setContents store (call.apply (grid.contents store)).1,
        (call.apply (grid.contents store)).2) := by
  unfold Grid.execute
  rw [applyOp_wire]
  rfl

/-- A request that is executed at once: what is thrown leaves the runtime as it was. -/
theorem run_executeNow_request {op : Opcode} {bytes : List UInt8} (hsmall : bytes.length < 2 ^ 31)
    {shape : Shape} {store : StoreId} (hsupported : op.supports shape = true) :
    (Code.executeNow (some (.cache store)) (requestArgs op bytes) shape).run.run rt =
      match rt.grid.execute op store bytes with
      | .ok (grid, result) => (.ok result, { rt with grid })
      | .error stop => (.error stop, rt) := by
  have hoperation : (Code.operation (some (.cache store)) (requestArgs op bytes ++ [])
    shape).run.run rt =
      (.ok (store, op, bytes), rt) := run_operation hsmall [] hsupported
  rw [List.append_nil] at hoperation
  unfold Code.executeNow
  rw [run_bind_of_ok hoperation]
  simp only [run_get_bind]
  cases rt.grid.execute op store bytes <;> rfl

/-- A call that is made at once changes its store and gives its result. -/
theorem run_executeNow (call : CacheCall) {shape : Shape} {store : StoreId}
    (hsupported : call.op.supports shape = true) :
    (Code.executeNow (some (.cache store)) call.args shape).run.run rt =
      (.ok (call.apply (rt.grid.contents store)).2, { rt with
        grid := rt.grid.setContents store (call.apply (rt.grid.contents store)).1 }) := by
  rw [CacheCall.args, run_executeNow_request call.small_wire hsupported, execute_wire]

/-- Its result, cut to 32 bits. -/
theorem does_inOp (call : CacheCall) {store : StoreId}
    (hsupported : call.op.supports .inOp = true) :
    Does files thread desk .targetInOp (some (.cache store)) call.args
      (.ok (.int (call.apply (desk.grid.contents store)).2.toInt32)) (desk.done call store) := by
  intro rt hshows
  refine ⟨_, ?_, hshows.done call store⟩
  show (Code.executeNow _ _ _ >>= _ : Code _).run.run rt = _
  rw [run_bind_of_ok (run_executeNow call hsupported), hshows.grid]
  rfl

/-- Its result in full. -/
theorem does_inOutOp (call : CacheCall) {store : StoreId}
    (hsupported : call.op.supports .inOut = true) :
    Does files thread desk .targetInOutOp (some (.cache store)) call.args
      (.ok (.long (call.apply (desk.grid.contents store)).2)) (desk.done call store) := by
  intro rt hshows
  refine ⟨_, ?_, hshows.done call store⟩
  show (Code.executeNow _ _ _ >>= _ : Code _).run.run rt = _
  rw [run_bind_of_ok (run_executeNow call hsupported), hshows.grid]
  rfl

/-- The task that a call is queued as. -/
def CacheCall.task (call : CacheCall) (store : StoreId) (callback data : Word) : Task where
  op := call.op
  store := store
  request := call.wire
  callback := callback
  data := data

/-- A request that is queued: nothing is looked at but that the runtime is up. -/
theorem run_executeLater_request {op : Opcode} {bytes : List UInt8} (hsmall : bytes.length < 2 ^ 31)
    (hsupported : op.supports .inOutAsync = true) (hup : rt.phase = .running) {store : StoreId}
    (callback data : Word) :
    (Code.executeLater (some (.cache store))
        (requestArgs op bytes ++ [.long callback, .long data])).run.run rt =
      (.ok .void, { rt with tasks := rt.tasks ++ [⟨op, store, bytes, callback, data⟩] }) := by
  have harg₃ : (Code.longArg (requestArgs op bytes ++ [.long callback, .long data]) 3).run.run rt =
      (.ok callback, rt) := rfl
  have harg₄ : (Code.longArg (requestArgs op bytes ++ [.long callback, .long data]) 4).run.run rt =
      (.ok data, rt) := rfl
  unfold Code.executeLater
  rw [run_bind_of_ok (run_operation hsmall _ hsupported)]
  simp only [run_bind_of_ok harg₃, run_bind_of_ok harg₄, run_get_bind, hup]
  rfl

/-- A call that is queued changes nothing but the queue. -/
theorem does_inOutOpAsync (call : CacheCall) {store : StoreId} {callback data : Word}
    (hsupported : call.op.supports .inOutAsync = true) :
    Does files thread desk .targetInOutOpAsync (some (.cache store))
      (call.args ++ [.long callback, .long data]) (.ok .void)
      { desk with tasks := desk.tasks ++ [call.task store callback data] } := by
  intro rt hshows
  exact ⟨{ rt with tasks := rt.tasks ++ [call.task store callback data] },
    run_executeLater_request call.small_wire hsupported hshows.phase callback data,
    { hshows with tasks := by rw [hshows.tasks] }⟩

/-- What a worker hands out when it has run the task of a call: one completion with the result. -/
theorem Shows.runTask (h : Shows files thread desk rt) (call : CacheCall) (store : StoreId)
    (callback data : Word) :
    rt.runTask (call.task store callback data) = { rt with
      grid := rt.grid.setContents store (call.apply (rt.grid.contents store)).1
      outbox := [{
        entry := .completion
        callback := callback
        data := data
        completion := ⟨resultOk, (call.apply (rt.grid.contents store)).2.toUInt64⟩ }] } := by
  unfold Runtime.runTask CacheCall.task
  dsimp only
  rw [execute_wire]
  simp only [Runtime.signal?, h.entry, h.faults, Runtime.completionOf, Runtime.send, h.outbox]
  rfl

/-! ## Reading faults -/

/-- Methods that only look at their receiver. -/
def Behaviour.looks : Behaviour → Bool
  | .throwableToString | .throwableGetMessage | .classGetName => true
  | _ => false

/-- Calls that leave everything but local references and what is pending as it is. -/
def Harmless : Call → Prop
  | .exceptionCheck | .exceptionOccurred | .exceptionDescribe | .exceptionClear
  | .getObjectClass _ | .getString _ | .deleteLocalRef _ => True
  | .callObject _ method _ =>
    ∃ entry, methodEntry? method = some entry ∧ entry.behaviour.looks = true
  | _ => False

/-- The runtime holds what is on the desk, whatever local references there are and whether or not
something is pending. -/
def Retains (files : Files.FileSystem) (thread : ThreadId) (desk : Desk) (rt : Runtime) : Prop :=
  ∃ p, Shows files thread { desk with locals := [], raised := p } rt

theorem Shows.retains (h : Shows files thread desk rt) : Retains files thread desk rt :=
  ⟨desk.raised, h.forget (List.nil_sublist _)⟩

namespace Retains

/-- Once nothing is pending, the desk is as it was between operations. -/
theorem shows (h : Retains files thread desk rt) (hnothing : rt.pending? thread = none) :
    Shows files thread { desk with locals := [], raised := false } rt := by
  obtain ⟨p, hshows⟩ := h
  have hclear : false = p := by
    have hpending : (rt.pending? thread).isSome = p := hshows.pending
    rw [hnothing] at hpending
    exact hpending
  rw [hclear]
  exact hshows

/-- Completions that are taken off leave it so. -/
theorem received (h : Retains files thread desk rt) :
    Retains files thread desk { rt with outbox := [] } := by
  obtain ⟨p, hshows⟩ := h
  exact ⟨p, hshows.received⟩

/-- So does an exception. -/
theorem raise (h : Retains files thread desk rt) (thrown : Thrown) :
    Retains files thread desk (rt.raise thread thrown) := by
  obtain ⟨p, hshows⟩ := h
  exact ⟨true, hshows.raise thrown⟩

/-- A reference that is made to an object, or none. -/
theorem ends_localRef (h : Retains files thread desk rt) (found : Option Object) :
    Ends (Answering.localRef found)
      (fun _ rt' => rt'.refs.next ≤ 2 ^ 64 → Retains files thread desk rt') rt := by
  cases found with
  | none => exact ends_pure fun _ => h
  | some object =>
    obtain ⟨p, hshows⟩ := h
    refine ends_bind (ends_get (ends_bind (ends_set (ends_pure ?_))))
    intro hroom
    exact ⟨p, (hshows.made hroom object).forget (List.nil_sublist _)⟩

/-- A local reference that is given back is no durable one. -/
theorem ends_deleteRef (h : Retains files thread desk rt) (r : Ref) :
    Ends (Answering.deleteRef r .localRef) (fun _ rt' => Retains files thread desk rt') rt := by
  refine ends_bind (ends_get ?_)
  cases hremoved : rt.refs.remove r .localRef with
  | error fault => cases fault <;> exact ends_throw
  | ok refs =>
    refine ends_set ?_
    -- only a local reference can go, and what is owned is held by durable ones
    obtain ⟨p, hshows⟩ := h
    cases RefTable.removal_iff.mpr hremoved with
    | null => exact ⟨p, hshows⟩
    | taken _ hfound hisLocal =>
      refine ⟨p, { hshows with sound := hshows.sound.erase r, owned := ?_, locals := nofun }⟩
      intro o hmem
      refine (hshows.owned o hmem).erase hshows.sound ?_
      rintro rfl
      have hboth := (hshows.owned o hmem).symm.trans hfound
      rw [← Option.some.inj hboth] at hisLocal
      exact absurd (show RefKind.globalRef = .localRef from hisLocal) (by decide)

end Retains

/-- A method that only looks leaves the runtime as it was. -/
theorem run_dispatch_looks {behaviour : Behaviour} (hlooks : behaviour.looks = true)
    (hfaults : rt.faults = {}) (self : Option Object) (values : List ArgValue) :
    ∃ outcome, (Code.dispatch behaviour self values).run.run rt = (outcome, rt) := by
  cases behaviour with
  | throwableToString => rcases self with _ | (_ | _ | _ | _ | _ | _) <;> exact ⟨_, rfl⟩
  | classGetName => rcases self with _ | (_ | _ | _ | _ | _ | _) <;> exact ⟨_, rfl⟩
  | throwableGetMessage =>
    rcases self with _ | (_ | _ | thrown | _ | _ | _)
    case some.throwable =>
      have hreceiver : (Code.throwableReceiver (some (.throwable thrown))).run.run rt =
          (.ok thrown, rt) := rfl
      -- no message fault is left to be used up
      have hnone : rt.faults.messageFaults.take? = none := by rw [hfaults]; rfl
      apply Exists.intro
      show (Code.getMessage _).run.run rt = _
      unfold Code.getMessage
      rw [run_bind_of_ok hreceiver]
      simp only [run_get_bind, hnone]
      rfl
    all_goals exact ⟨_, rfl⟩
  | _ => cases hlooks

/-- One harmless call. -/
theorem wp_harmless (h : Retains files thread desk rt) {request : Call} (hharmless : Harmless request)
    {Q : request.Reply → Runtime → Prop}
    (hQ : ∀ reply rt', Retains files thread desk rt' → Q reply rt') :
    (Script.ask request).wp (loopback thread) Q rt := by
  refine wp_answer ?_
  have hdone (reply : request.Reply) {rt' : Runtime} (h : Retains files thread desk rt') :
      Q reply { rt' with outbox := [] } := hQ reply _ h.received
  cases request with
  | exceptionCheck => exact ends_bind (ends_get (ends_pure fun _ => hdone _ h))
  | exceptionOccurred =>
    refine ends_bind (ends_get ((h.ends_localRef _).mono ?_))
    exact fun reply rt' hretains hroom => hdone reply (hretains hroom)
  | exceptionDescribe =>
    refine ends_bind (ends_get ?_)
    split
    · obtain ⟨p, hshows⟩ := h
      exact ends_modify fun _ => hdone _ ⟨p, { hshows with }⟩
    · exact ends_pure fun _ => hdone _ h
  | exceptionClear =>
    obtain ⟨p, hshows⟩ := h
    exact ends_modify fun _ => hdone _ ⟨false, hshows.clear⟩
  | getObjectClass obj =>
    refine ends_bind (Answering.ends_resolve.mono ?_)
    intro found rt' ⟨hsame, _⟩
    rw [hsame]
    exact (h.ends_localRef _).mono fun reply rt' hretains hroom => hdone reply (hretains hroom)
  | getString str =>
    refine ends_bind (Answering.ends_resolve.mono ?_)
    intro found rt' ⟨hsame, _⟩
    rw [hsame]
    split <;> exact ends_pure fun _ => hdone _ h
  | deleteLocalRef r => exact (h.ends_deleteRef r).mono fun reply rt' hretains _ => hdone reply hretains
  | callObject obj method args =>
    obtain ⟨entry, hmethod, hlooks⟩ := hharmless
    refine ends_bind (Answering.ends_invoke hmethod ?_)
    intro self values _ _ _
    have hfaults : rt.faults = {} := by
      obtain ⟨p, hshows⟩ := h
      exact hshows.faults
    -- the method only looks, so at most an exception is left pending
    obtain ⟨outcome, hrun⟩ := run_dispatch_looks hlooks hfaults self values
    refine Answering.ends_runMethod hrun ?_ ?_
    · rintro value rfl
      cases value with
      | object found =>
        exact (h.ends_localRef found).mono fun reply rt' hretains hroom => hdone reply (hretains hroom)
      | _ => exact ends_pure fun _ => hdone _ h
    · intro thrown _
      exact ends_pure fun _ => hdone _ (h.raise thrown)
  | _ => exact hharmless.elim

/-- Scripts of harmless calls leave what is on the desk. -/
theorem wp_retains {α : Type} {told : ManagedFault → Prop} {script : Script α}
    (hmakes : script.Makes Harmless told) (h : Retains files thread desk rt) :
    script.wp (loopback thread) (fun _ rt' => Retains files thread desk rt') rt := by
  induction script generalizing rt with
  | done value => exact h
  -- each call is harmless, whatever was answered before
  | call request next ih =>
    show (Script.ask request >>= next).wp _ _ _
    refine Script.wp_bind.mpr (wp_harmless h hmakes.1 fun reply rt' h' => ?_)
    exact ih reply (hmakes.2 reply) h'
  | report fault next ih => exact ih hmakes.2 h

end GridBridge.Managed

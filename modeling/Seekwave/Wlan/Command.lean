import Seekwave.Lib.Loop

/-!
# Netlink commands of the Wi-Fi HAL

`sendMsg` of `wifi_command.cpp` sends a command and then calls `nl_recvmsgs` for as long as `err` is
positive. `err` is written by three of the four callbacks that libnl dispatches the kernel's messages
to; the fourth passes data to the command's parser. libnl is a parameter (`Libnl`), used only through
its documented dispatch (`Libnl.Receives`).

All three callbacks store 0, `errorHandler` too, so the command is reported a success whatever ends the
kernel's reply (`returns_recvBody`). A call of `nl_recvmsgs` that fails is to be logged, but the format
of the message asks for a string where the code of the error stands, and the process crashes
(`crashes_of_failed`). `send_reports_iff` says exactly when a command reports what the kernel said.
-/

namespace Seekwave

/-! ## libnl -/

/-- What a callback tells `nl_recvmsgs` to do next: `NL_OK`, `NL_SKIP` or `NL_STOP`. -/
inductive NlAction
  | ok
  | skip
  | stop
deriving DecidableEq, Repr

/-- A message of the kernel, as libnl tells them apart. -/
inductive NlReply (μ : Type)
  | valid (msg : μ)
  | ack
  /-- `NLMSG_DONE`, the end of a dump -/
  | finish
  /-- `NLMSG_ERROR` with a non-zero code -/
  | err (code : ℤ)

/-- A set of callbacks, over the state `σ` that their arguments point to. -/
structure NlCb (σ μ : Type) where
  err : ℤ → σ → σ × NlAction
  finish : σ → σ × NlAction
  ack : σ → σ × NlAction
  valid : μ → σ → σ × NlAction

namespace NlCb

variable {σ μ : Type} (cb : NlCb σ μ)

/-- The callback of one message. -/
def call : NlReply μ → σ → σ × NlAction
  | .valid msg => cb.valid msg
  | .ack => cb.ack
  | .finish => cb.finish
  | .err code => cb.err code

/-- The callbacks of the messages one call of `nl_recvmsgs` receives, up to `NL_STOP`. -/
def dispatch : List (NlReply μ) → σ → σ
  | [], s => s
  | m :: ms, s =>
    match cb.call m s with
    | (s', .stop) => s'
    | (s', _) => dispatch ms s'

end NlCb

/-- The functions of libnl that commands use. `Sock` is the state of the socket and of the kernel
behind it; `recvmsgs` is given the state of the callbacks and returns it with the value of the call. -/
structure Libnl (μ α : Type) where
  Sock : Type
  sendAutoComplete : Sock → ℤ × Sock
  recvmsgs : {σ : Type} → NlCb σ μ → Sock → σ → ℤ × Sock × σ
  /-- `nla_parse` of the attributes of a message -/
  nlaParse : μ → α

/-- A call of `nl_recvmsgs`: the messages it receives, and whether it fails behind them. -/
structure NlCall (μ : Type) where
  msgs : List (NlReply μ)
  failed : Bool

namespace Libnl

variable {μ α : Type} (L : Libnl μ α)

/-- At `k`, `nl_recvmsgs` dispatches the messages of the call to their callbacks and leads to `k'`. -/
def Receives (k : L.Sock) (call : NlCall μ) (k' : L.Sock) : Prop :=
  ∀ (σ : Type) (cb : NlCb σ μ) (s : σ), ∃ res,
    L.recvmsgs cb k s = (res, k', cb.dispatch call.msgs s) ∧ (res < 0 ↔ call.failed = true)

/-- `calls` are the next calls of `nl_recvmsgs` from `k` on, and lead to `k'`. -/
def ReceivesAll : L.Sock → List (NlCall μ) → L.Sock → Prop
  | k, [], k' => k' = k
  | k, call :: calls, k' => ∃ k₁, L.Receives k call k₁ ∧ ReceivesAll k₁ calls k'

/-- The next calls of `nl_recvmsgs` receive the messages `calls`, and none of them fails. -/
def Delivers (k : L.Sock) (calls : List (List (NlReply μ))) (k' : L.Sock) : Prop :=
  L.ReceivesAll k (calls.map (⟨·, false⟩)) k'

end Libnl

/-! ## Sending a command -/

/-- The `wifi_error` values that the modelled functions return. -/
inductive WifiError
  | success
  | unknown
  | outOfMemory
deriving DecidableEq, Repr

/-- What the callbacks of `sendMsg` change: `err`, and the command with its parser's fields. -/
structure SendState (κ : Type) where
  err : ℤ
  cmd : κ

variable {μ α κ : Type}

def ackHandler (s : SendState κ) : SendState κ × NlAction := ({ s with err := 0 }, .stop)

def finishHandler (s : SendState κ) : SendState κ × NlAction := ({ s with err := 0 }, .skip)

/-- The code of the message, `err->error`, is not looked at. -/
def errorHandler (_code : ℤ) (s : SendState κ) : SendState κ × NlAction := ({ s with err := 0 }, .skip)

variable (L : Libnl μ α) (parser : κ → α → κ)

/-- The command's `parser` is given the attributes of the message; its result is not used. -/
def msgHandler (msg : μ) (s : SendState κ) : SendState κ × NlAction :=
  ({ s with cmd := parser s.cmd (L.nlaParse msg) }, .skip)

/-- The callbacks that `sendMsg` sets. -/
def sendCb : NlCb (SendState κ) μ :=
  ⟨errorHandler, finishHandler, ackHandler, msgHandler L parser⟩

/-- One pass of `while (err > 0)`. The loop is left with `none` where the process crashes. -/
def recvBody (p : L.Sock × SendState κ) : (L.Sock × SendState κ) ⊕ Option (L.Sock × SendState κ) :=
  if 0 < p.2.err then
    let r := L.recvmsgs (sendCb L parser) p.1 p.2
    -- `ALOGE("%s: recv msg failed: %d", res)` takes `res` for the address of a string
    if r.1 < 0 then .inr none else .inl r.2
  else .inr (some p)

/-- The loop of `sendMsg`, entered once the command has been sent. -/
def SendLoop (k : L.Sock) (cmd : κ) : Option (L.Sock × SendState κ) → Prop :=
  Loop.Returns (recvBody L parser) ((L.sendAutoComplete k).2, ⟨(L.sendAutoComplete k).1, cmd⟩)

/-- `sendMsg`, when it returns: the result, the command and the socket it leaves. `cbAlloc` is the
success of `nl_cb_alloc`. -/
inductive SendMsg (cbAlloc : Bool) (k : L.Sock) (cmd : κ) : WifiError → κ → L.Sock → Prop
  -- its `ALOGE` asks for a string that is not there; where it comes back from that, this is returned
  | allocFailed (h : cbAlloc = false) : SendMsg cbAlloc k cmd .outOfMemory cmd k
  | sent (h : cbAlloc = true) (k' : L.Sock) (s : SendState κ)
      (hloop : SendLoop L parser k cmd (some (k', s))) :
      SendMsg cbAlloc k cmd (if s.err ≠ 0 then .unknown else .success) s.cmd k'

/-- `sendMsg` crashes. -/
def SendCrashes (k : L.Sock) (cmd : κ) : Prop := SendLoop L parser k cmd none

variable {L parser}

/-- The outcome of `sendMsg` is determined by the socket and the kernel. -/
theorem SendMsg.unique {cbAlloc : Bool} {k k₁ k₂ : L.Sock} {cmd c₁ c₂ : κ} {r₁ r₂ : WifiError}
    (h₁ : SendMsg L parser cbAlloc k cmd r₁ c₁ k₁) (h₂ : SendMsg L parser cbAlloc k cmd r₂ c₂ k₂) :
    r₁ = r₂ ∧ c₁ = c₂ ∧ k₁ = k₂ := by
  cases h₁ with
  | allocFailed h =>
    cases h₂ with
    | allocFailed _ => exact ⟨rfl, rfl, rfl⟩
    | sent h' _ _ _ => exact absurd (h.symm.trans h') (by decide)
  | sent h _ s hloop =>
    cases h₂ with
    | allocFailed h' => exact absurd (h'.symm.trans h) (by decide)
    | sent _ _ s' hloop' =>
      obtain ⟨rfl, rfl⟩ := Prod.mk.inj (Option.some.inj (Loop.Returns.unique hloop hloop'))
      exact ⟨rfl, rfl, rfl⟩

/-- What crashes does not return. -/
theorem SendCrashes.not_sendMsg {k k' : L.Sock} {cmd cmd' : κ} {r : WifiError}
    (h : SendCrashes L parser k cmd) : ¬ SendMsg L parser true k cmd r cmd' k' := by
  rintro (_ | ⟨_, _, _, hloop⟩)
  · contradiction
  · exact Option.some_ne_none _ (Loop.Returns.unique hloop h)

/-! ## The reply of the kernel -/

/-- The message that ends the reply to a command. -/
inductive Terminator
  | ack
  | finish
  | err (code : ℤ)
deriving DecidableEq, Repr

def Terminator.reply : Terminator → NlReply μ
  | .ack => .ack
  | .finish => .finish
  | .err code => .err code

/-- The kernel has accepted the command. -/
def Terminator.Accepted : Terminator → Prop
  | .ack | .finish => True
  | .err _ => False

/-- What the calls of `nl_recvmsgs` receive: the data of those in `before`, and then the data `last`
with the terminating message. -/
def replyCalls (before : List (List μ)) (last : List μ) (term : Terminator) : List (List (NlReply μ)) :=
  before.map (·.map .valid) ++ [last.map .valid ++ [term.reply]]

/-- The same of calls that may fail, each given by its data and whether it does. -/
def recvCalls (before : List (List μ × Bool)) (last : List μ × Bool) (term : Terminator) :
    List (NlCall μ) :=
  before.map (fun c => ⟨c.1.map .valid, c.2⟩) ++ [⟨last.1.map .valid ++ [term.reply], last.2⟩]

/-- Where no call fails, the calls deliver the reply. -/
theorem recvCalls_eq_replyCalls {before : List (List μ × Bool)} {last : List μ × Bool}
    (hgood : ∀ c ∈ before ++ [last], c.2 = false) (term : Terminator) :
    recvCalls before last term = (replyCalls (before.map Prod.fst) last.1 term).map (⟨·, false⟩) := by
  have hlast : last.2 = false := hgood last (List.mem_append_right _ (List.mem_singleton_self _))
  have hbefore : before.map (fun c => (⟨c.1.map .valid, c.2⟩ : NlCall μ)) =
      before.map fun c => ⟨c.1.map .valid, false⟩ :=
    List.map_congr_left fun c hc => by rw [hgood c (List.mem_append_left _ hc)]
  rw [recvCalls, replyCalls, List.map_append, List.map_map, List.map_map, hbefore, hlast]
  rfl

/-- The command once its parser has been given the data one after the other. -/
def parsed (L : Libnl μ α) (parser : κ → α → κ) (cmd : κ) (data : List μ) : κ :=
  data.foldl (fun c msg => parser c (L.nlaParse msg)) cmd

/-- Data leaves `err` as it was. -/
theorem dispatch_valid (data : List μ) (ms : List (NlReply μ)) (s : SendState κ) :
    (sendCb L parser).dispatch (data.map .valid ++ ms) s =
      (sendCb L parser).dispatch ms { s with cmd := parsed L parser s.cmd data } := by
  induction data generalizing s with
  | nil => rfl
  | cons msg data ih => exact ih _

/-- Whatever ends the reply clears `err`. -/
theorem dispatch_reply (term : Terminator) (s : SendState κ) :
    (sendCb L parser).dispatch [term.reply] s = { s with err := 0 } := by
  cases term <;> rfl

/-- A pass of the loop behind a call of `nl_recvmsgs`. -/
theorem recvBody_receives {k k' : L.Sock} {call : NlCall μ} (hcall : L.Receives k call k')
    {s : SendState κ} (herr : 0 < s.err) :
    recvBody L parser (k, s) =
      if call.failed = true then .inr none else .inl (k', (sendCb L parser).dispatch call.msgs s) := by
  obtain ⟨res, hres, hfailed⟩ := hcall _ (sendCb L parser) s
  rw [recvBody, if_pos herr]
  dsimp only
  rw [hres]
  exact if_congr hfailed rfl rfl

/-- Behind a call that receives data, the loop goes round again with the data parsed. -/
theorem recvBody_data {k k' : L.Sock} {data : List μ}
    (hcall : L.Receives k ⟨data.map .valid, false⟩ k') {s : SendState κ} (herr : 0 < s.err) :
    recvBody L parser (k, s) = .inl (k', { s with cmd := parsed L parser s.cmd data }) := by
  have hdisp := @dispatch_valid μ α κ L parser data [] s
  rw [List.append_nil] at hdisp
  rw [recvBody_receives hcall herr, if_neg Bool.false_ne_true, hdisp]
  rfl

/-- **The receive loop.** The loop calls `nl_recvmsgs` up to the terminating message, hands all data to
the parser, once and in order, and is left with `err = 0` whatever that message is. -/
theorem returns_recvBody {k kEnd : L.Sock} {before : List (List μ)} {last : List μ}
    {term : Terminator} (hdel : L.Delivers k (replyCalls before last term) kEnd) {err : ℤ}
    (herr : 0 < err) (cmd : κ) :
    Loop.Returns (recvBody L parser) (k, ⟨err, cmd⟩)
      (some (kEnd, ⟨0, parsed L parser cmd (before.flatten ++ last)⟩)) := by
  induction before generalizing k cmd with
  | nil =>
    obtain ⟨k₁, hrecv, rfl⟩ := hdel
    have hbody : recvBody L parser (k, ⟨err, cmd⟩) = _ := recvBody_receives hrecv herr
    rw [if_neg Bool.false_ne_true, dispatch_valid, dispatch_reply] at hbody
    exact .again hbody (.leave (by rw [recvBody, if_neg (Int.lt_irrefl 0)]; rfl))
  | cons data before ih =>
    obtain ⟨k₁, hrecv, hrest⟩ := hdel
    have hfold : parsed L parser cmd ((data :: before).flatten ++ last) =
        parsed L parser (parsed L parser cmd data) (before.flatten ++ last) := by
      rw [parsed, List.flatten_cons, List.append_assoc, List.foldl_append]
      rfl
    rw [hfold]
    exact .again (recvBody_data hrecv (s := ⟨err, cmd⟩) herr) (ih hrest _)

/-- **The first call that fails.** The loop is not left behind it, and the process crashes. -/
theorem crashes_of_failed {k kEnd : L.Sock} {before : List (List μ × Bool)} {last : List μ × Bool}
    {term : Terminator} (hrecv : L.ReceivesAll k (recvCalls before last term) kEnd)
    (hfailed : ∃ c ∈ before ++ [last], c.2 = true) {err : ℤ} (herr : 0 < err) (cmd : κ) :
    Loop.Returns (recvBody L parser) (k, ⟨err, cmd⟩) none := by
  induction before generalizing k cmd with
  | nil =>
    obtain ⟨c, hc, hlast⟩ := hfailed
    obtain rfl := List.mem_singleton.mp hc
    obtain ⟨k₁, hcall, -⟩ := hrecv
    exact .leave ((recvBody_receives hcall herr).trans (if_pos hlast))
  | cons first before ih =>
    obtain ⟨data, failed⟩ := first
    obtain ⟨k₁, hcall, hrest⟩ := hrecv
    -- a call before the first one that fails is a pass like any other
    cases failed with
    | true => exact .leave ((recvBody_receives hcall herr).trans (if_pos rfl))
    | false =>
      have hlater : ∃ c ∈ before ++ [last], c.2 = true := by
        obtain ⟨c, hc, hbad⟩ := hfailed
        rcases List.mem_cons.mp hc with rfl | hc
        · exact absurd hbad Bool.false_ne_true
        · exact ⟨c, hc, hbad⟩
      exact .again (recvBody_data hcall (s := ⟨err, cmd⟩) herr) (ih hrest hlater _)

/-- A command that was sent is reported a success, its parser having seen all data. -/
theorem sendMsg_of_delivers {k kEnd : L.Sock} (cmd : κ) {before : List (List μ)} {last : List μ}
    {term : Terminator} (hsent : 0 < (L.sendAutoComplete k).1)
    (hdel : L.Delivers (L.sendAutoComplete k).2 (replyCalls before last term) kEnd) :
    SendMsg L parser true k cmd .success (parsed L parser cmd (before.flatten ++ last)) kEnd :=
  .sent rfl _ _ (returns_recvBody hdel hsent cmd)

/-- A command that could not be sent fails, without a call of `nl_recvmsgs`. -/
theorem sendMsg_of_neg {k : L.Sock} (cmd : κ) (hsent : (L.sendAutoComplete k).1 < 0) :
    SendMsg L parser true k cmd .unknown cmd (L.sendAutoComplete k).2 := by
  have hbody : recvBody L parser ((L.sendAutoComplete k).2, ⟨(L.sendAutoComplete k).1, cmd⟩) =
      .inr (some ((L.sendAutoComplete k).2, ⟨(L.sendAutoComplete k).1, cmd⟩)) :=
    if_neg (Int.not_lt.mpr (Int.le_of_lt hsent))
  have h := @SendMsg.sent μ α κ L parser true k cmd rfl _ _ (.leave hbody)
  rwa [if_pos (Int.ne_of_lt hsent)] at h

/-- A command reports what the kernel said: a failed send fails without receiving; otherwise the loop
is left at the terminating message with all data before it parsed, and the result is a success exactly
if that message accepts the command. -/
def Reports (L : Libnl μ α) (parser : κ → α → κ) (k : L.Sock) (cmd : κ) (data : List μ)
    (term : Terminator) (kEnd : L.Sock) : Prop :=
  ((L.sendAutoComplete k).1 < 0 →
    SendMsg L parser true k cmd .unknown cmd (L.sendAutoComplete k).2) ∧
  (0 < (L.sendAutoComplete k).1 → ∃ r, SendMsg L parser true k cmd r (parsed L parser cmd data) kEnd ∧
    (r = .success ↔ term.Accepted))

/-- **A command reports what the kernel said, exactly when.** For any reply of the kernel, in any number
of calls of `nl_recvmsgs` of which any may fail, it does if and only if the command was not sent, or no
call fails and the reply does not end in an error. -/
theorem send_reports_iff (L : Libnl μ α) (parser : κ → α → κ) (k kEnd : L.Sock) (cmd : κ)
    (before : List (List μ × Bool)) (last : List μ × Bool) (term : Terminator)
    (hrecv : 0 < (L.sendAutoComplete k).1 →
      L.ReceivesAll (L.sendAutoComplete k).2 (recvCalls before last term) kEnd) :
    Reports L parser k cmd ((before.map Prod.fst).flatten ++ last.1) term kEnd ↔
      (0 < (L.sendAutoComplete k).1 → term.Accepted ∧ ∀ c ∈ before ++ [last], c.2 = false) := by
  have hdel (hsent : 0 < (L.sendAutoComplete k).1) (hgood : ∀ c ∈ before ++ [last], c.2 = false) :
      L.Delivers (L.sendAutoComplete k).2 (replyCalls (before.map Prod.fst) last.1 term) kEnd := by
    rw [Libnl.Delivers, ← recvCalls_eq_replyCalls hgood]
    exact hrecv hsent
  constructor
  · rintro ⟨-, hreply⟩ hsent
    obtain ⟨r, hsend, hiff⟩ := hreply hsent
    -- it has returned, and so no call has failed
    have hgood : ∀ c ∈ before ++ [last], c.2 = false := by
      by_contra hbad
      push Not at hbad
      simp only [Bool.ne_false_iff] at hbad
      exact SendCrashes.not_sendMsg (crashes_of_failed (hrecv hsent) hbad hsent cmd) hsend
    obtain ⟨rfl, -, -⟩ := hsend.unique (sendMsg_of_delivers cmd hsent (hdel hsent hgood))
    exact ⟨hiff.mp rfl, hgood⟩
  · intro hacc
    refine ⟨sendMsg_of_neg cmd, fun hsent => ?_⟩
    obtain ⟨hterm, hgood⟩ := hacc hsent
    exact ⟨.success, sendMsg_of_delivers cmd hsent (hdel hsent hgood), iff_of_true rfl hterm⟩

/-- A libnl that has the calls of `nl_recvmsgs` at hand: a command is sent as 16 bytes, and each call
receives the next messages, a failing one with `-NLE_SEQ_MISMATCH` behind them. -/
def callsNl (μ : Type) : Libnl μ μ where
  Sock := List (NlCall μ)
  sendAutoComplete k := (16, k)
  recvmsgs cb k s :=
    match k with
    | [] => (-4, [], s)
    | call :: calls => (if call.failed = true then -16 else 0, calls, cb.dispatch call.msgs s)
  nlaParse := id

theorem callsNl_receivesAll (calls : List (NlCall μ)) : (callsNl μ).ReceivesAll calls calls [] := by
  induction calls with
  | nil => rfl
  | cons call calls ih =>
    refine ⟨calls, fun _ _ _ => ⟨_, rfl, ?_⟩, ih⟩
    cases call.failed <;> decide

/-- A libnl none of whose calls fails before the reply is at its end. -/
def queueNl (μ : Type) : Libnl μ μ where
  Sock := List (List (NlReply μ))
  sendAutoComplete k := (16, k)
  recvmsgs cb k s :=
    match k with
    | [] => (-4, [], s)
    | ms :: calls => (0, calls, cb.dispatch ms s)
  nlaParse := id

theorem queueNl_delivers (calls : List (List (NlReply μ))) :
    (queueNl μ).Delivers calls calls [] := by
  induction calls with
  | nil => rfl
  | cons ms calls ih => exact ⟨calls, fun _ _ _ => ⟨0, rfl, iff_of_false (Int.lt_irrefl 0) Bool.false_ne_true⟩, ih⟩

/-- A dump of two interfaces in two calls, and the same dump with a call that fails in between. -/
theorem send_reports_iff_dump :
    (Reports (callsNl ℕ) (fun c m => c ++ [m]) (recvCalls [([7], false)] ([8], false) .finish) []
        [7, 8] .finish [] ↔
      (0 < (16 : ℤ) → Terminator.finish.Accepted ∧
        ∀ c ∈ [([7], false)] ++ [([8], false)], c.2 = false)) ∧
    (Reports (callsNl ℕ) (fun c m => c ++ [m]) (recvCalls [([7], false), ([], true)] ([8], false) .finish)
        [] [7, 8] .finish [] ↔
      (0 < (16 : ℤ) → Terminator.finish.Accepted ∧
        ∀ c ∈ [([7], false), ([], true)] ++ [([8], false)], c.2 = false)) :=
  ⟨send_reports_iff (callsNl ℕ) _ (recvCalls [([7], false)] ([8], false) .finish) [] []
      [([7], false)] ([8], false) .finish fun _ => callsNl_receivesAll _,
    send_reports_iff (callsNl ℕ) _ (recvCalls [([7], false), ([], true)] ([8], false) .finish) [] []
      [([7], false), ([], true)] ([8], false) .finish fun _ => callsNl_receivesAll _⟩

/-- The kernel answers `-EINVAL`, and the command is a success. -/
theorem send_swallows_error :
    SendMsg (queueNl ℕ) (fun c m => c ++ [m]) true [[.err (-22)]] [] .success [] [] ∧
      ¬ Reports (queueNl ℕ) (fun c m => c ++ [m]) [[.err (-22)]] [] [] (.err (-22)) [] := by
  have hsend := @sendMsg_of_delivers ℕ ℕ (List ℕ) (queueNl ℕ) (fun c m => c ++ [m]) [[.err (-22)]] [] []
    [] [] (.err (-22)) (by decide) (queueNl_delivers _)
  refine ⟨hsend, fun hrep => ?_⟩
  obtain ⟨r, hr, hiff⟩ := hrep.2 (by decide)
  obtain ⟨rfl, -, -⟩ := hr.unique hsend
  exact hiff.mp rfl

end Seekwave

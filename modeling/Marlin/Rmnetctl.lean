import Mathlib.Data.List.TakeDrop
import Marlin.StepLaws

/-!
# The Control Library of the Modem's Network Devices

`librmnetctl` asks the kernel over a netlink socket: a call checks its arguments, copies its strings into a request,
sends it, and reads the oldest reply.

## Conventions

* The kernel puts one reply into the queue of the socket for each message. Reading takes the oldest one, or fails and
  takes none. What fails is taken from the environment.
* `nlmsg_seq` and `transaction_id` count on without wrapping around. No code reads them.
* A string is what stands before the byte 0 that ends it. What a call is given beside its strings passes the checks
  or not, and what it returns beside them is left out. `max` is `RMNET_MAX_STR_LEN`.

## Main results

* `transact_replies_iff`: when the replies are those to the requests, for all sequences of calls.
* `transfers_iff`: when no string is cut off silently.
-/

namespace Marlin

open List StepLaws

/-! ### Messages -/

/-- The field `crd`. -/
inductive RmnetCrd
  | command
  | returnCode
  | returnData

/-- `struct rmnet_nl_msg_s`, as a reply: the return code, or a name that is shorter than 4 GiB. -/
structure RmnetNlMsg where
  crd : RmnetCrd
  message_type : ℕ
  return_code : ℕ := 0
  name : List UInt8 := []
  name_lt : name.length < 2 ^ 32 := by decide

/-- A reply, with the number of the request that it is for. -/
structure NlReply where
  nlmsg_seq : ℕ
  msg : RmnetNlMsg

/-- `error_code`, where the library sets it. -/
inductive RmnetError
  | requestNull
  | responseNull
  | messageSend
  | messageReceive
  | messageType
  | returnType
  | stringTruncation
  | kernel (error_val : ℕ)
deriving DecidableEq

/-- `rmnetctl_hndl_t`, with the queue of its socket. -/
structure RmnetctlHndl where
  transaction_id : ℕ := 0
  queue : List NlReply := []

/-- The type of a request, what the kernel replies, and what does not fail. -/
structure Transaction where
  message_type : ℕ
  reply : RmnetNlMsg
  requestBuf : Bool := true
  responseBuf : Bool := true
  sendto : Bool := true
  recvfrom : Bool := true

namespace RmnetctlHndl

variable {s : RmnetctlHndl} {c : Transaction}

/-- `rmnetctl_transact`. -/
def transact (s : RmnetctlHndl) (c : Transaction) : Except RmnetError NlReply × RmnetctlHndl :=
  if !c.requestBuf then (.error .requestNull, s)
  else if !c.responseBuf then (.error .responseNull, s)
  else
    let seq := s.transaction_id
    let s := { s with transaction_id := s.transaction_id + 1 }
    if !c.sendto then (.error .messageSend, s)
    else
      let queue : List NlReply := s.queue ++ [⟨seq, c.reply⟩]
      match c.recvfrom, queue with
      | true, r :: rest =>
        (if c.message_type ≠ r.msg.message_type then .error .messageType else .ok r, { s with queue := rest })
      | _, _ => (.error .messageReceive, { s with queue := queue })

/-- Nothing fails. -/
def Works (c : Transaction) : Prop :=
  c.requestBuf = true ∧ c.responseBuf = true ∧ c.sendto = true ∧ c.recvfrom = true

/-- **What is returned**: the oldest reply, if its type is that of the request. -/
theorem transact_eq_ok_iff (s : RmnetctlHndl) (c : Transaction) (r : NlReply) : (s.transact c).1 = .ok r ↔
    Works c ∧ s.queue.head?.getD ⟨s.transaction_id, c.reply⟩ = r ∧ c.message_type = r.msg.message_type := by
  rw [transact, Works]
  split
  · simp_all
  split
  · simp_all
  dsimp only
  split
  · simp_all
  cases c.recvfrom with
  | false => simp
  | true =>
    cases s.queue with
    | nil => grind
    | cons r' queue => grind

/-- The reply is that to the request. -/
def Replies (s : RmnetctlHndl) (c : Transaction) : Prop :=
  ∀ r, (s.transact c).1 = .ok r → r.nlmsg_seq = s.transaction_id

/-- **The condition**: unless the call fails, the oldest reply in the queue has another type. -/
def NoneMatches (s : RmnetctlHndl) (c : Transaction) : Prop :=
  Works c → ∀ r ∈ s.queue.head?, c.message_type ≠ r.msg.message_type

/-- The replies in the queue are for requests before. -/
def Inv (s : RmnetctlHndl) : Prop := ∀ r ∈ s.queue, r.nlmsg_seq < s.transaction_id

theorem Inv.transact (hs : s.Inv) (c : Transaction) : (s.transact c).2.Inv := by
  have hnext : ∀ r ∈ s.queue ++ [⟨s.transaction_id, c.reply⟩], r.nlmsg_seq < s.transaction_id + 1 := by
    intro r hr
    rcases mem_append.mp hr with hr | hr
    · exact Nat.lt_succ_of_lt (hs r hr)
    · exact mem_singleton.mp hr ▸ Nat.lt_succ_self _
  rw [RmnetctlHndl.transact]
  split
  · exact hs
  split
  · exact hs
  dsimp only
  split
  · exact fun r hr => Nat.lt_succ_of_lt (hs r hr)
  · split
    · rename_i hq
      exact fun r hr => hnext r (hq ▸ mem_cons_of_mem _ hr)
    · exact hnext

theorem Inv.replies_iff (hs : s.Inv) (c : Transaction) : s.Replies c ↔ s.NoneMatches c := by
  simp only [Replies, NoneMatches, transact_eq_ok_iff]
  cases hq : s.queue with
  | nil => simp
  | cons r queue =>
    have hlt := hs r (hq ▸ mem_cons_self)
    constructor
    · rintro hseq hworks r' hr' htype
      cases hr'
      exact Nat.ne_of_lt hlt (hseq r ⟨hworks, rfl, htype⟩)
    · rintro hnone r' ⟨hworks, rfl, htype⟩
      exact absurd htype (hnone hworks r rfl)

/-- **The replies are those to the requests**, exactly if no call succeeds while an older reply matches. -/
theorem transact_replies_iff (cs : List Transaction) :
    Along (fun s c => (s.transact c).2) Replies {} cs ↔ Along (fun s c => (s.transact c).2) NoneMatches {} cs :=
  along_iff (I := Inv) (fun _ c hs => hs.replies_iff c) (fun _ c hs _ => hs.transact c) (by simp [Inv]) cs

/-- The request of type 5 and its reply. -/
def ofType5 (recvfrom : Bool) : Transaction where
  message_type := 5
  reply := { crd := .returnData, message_type := 5 }
  recvfrom := recvfrom

/-- A reply that was not read, and then the next request of its type. -/
theorem not_replies_unread : ¬ Along (fun s c => (s.transact c).2) Replies {} [ofType5 false, ofType5 true] := by
  rintro ⟨-, hreplies, -⟩
  exact absurd (hreplies ⟨0, (ofType5 false).reply⟩ rfl) (by decide)

end RmnetctlHndl

/-! ### Strings -/

/-- `strlcpy`: the length of the source, and what is written to the destination. -/
def strlcpy (src : List UInt8) (size : ℕ) : ℕ × List UInt8 :=
  (src.length, if size = 0 then [] else src.take (size - 1) ++ [0])

@[simp] theorem strlcpy_fst (src : List UInt8) (size : ℕ) : (strlcpy src size).1 = src.length := rfl

theorem strlcpy_whole_iff (src : List UInt8) (size : ℕ) : (strlcpy src size).2 = src ++ [0] ↔ src.length < size := by
  rw [strlcpy]
  split
  · simp_all
  · rw [append_cancel_right_eq, take_eq_self_iff]
    omega

/-- What a call of the library returns, the strings of the request that it sends, and what it writes to the caller's
buffer. -/
structure RmnetResult where
  code : ℕ
  error : Option RmnetError := none
  request : Option (List (List UInt8)) := none
  output : Option (List UInt8) := none

/-- `RMNETCTL_SUCCESS`, `RMNETCTL_LIB_ERR`, `RMNETCTL_KERNEL_ERR` and `RMNETCTL_INVALID_ARG`. -/
abbrev rmnetctlSuccess : ℕ := 0
abbrev rmnetctlLibErr : ℕ := 1
abbrev rmnetctlKernelErr : ℕ := 2
abbrev rmnetctlInvalidArg : ℕ := 3

/-- What a call does with the reply: it expects a return code, or data; of the data it may copy the name into a buffer
of some size, with a test for the length that is too long. -/
inductive ReplyUse
  | code
  | data
  | name (size : ℕ) (tooLong : ℕ → Bool)

/-- A call of the library, with its strings. -/
inductive RmnetCall
  | associateNetworkDevice (dev_name : Option (List UInt8))
  | getNetworkDeviceAssociated (dev_name : Option (List UInt8))
  | setLinkEgressDataFormat (dev_name : Option (List UInt8))
  | getLinkEgressDataFormat (dev_name : Option (List UInt8))
  | setLinkIngressDataFormatTailspace (dev_name : Option (List UInt8))
  | getLinkIngressDataFormatTailspace (dev_name : Option (List UInt8))
  | setLogicalEpConfig (dev_name next_dev : Option (List UInt8))
  | unsetLogicalEpConfig (dev_name : Option (List UInt8))
  | getLogicalEpConfig (dev_name : Option (List UInt8)) (next_dev_len : ℕ)
  | newVndPrefix (new_vnd : Bool) (pre : Option (List UInt8))
  | getVndName (buflen : ℕ)
  | addDelVndTcFlow

namespace RmnetCall

/-- The device names, which `_rmnetctl_check_dev_name` checks. -/
def names : RmnetCall → List (Option (List UInt8))
  | associateNetworkDevice dev_name | getNetworkDeviceAssociated dev_name | setLinkEgressDataFormat dev_name
  | getLinkEgressDataFormat dev_name | setLinkIngressDataFormatTailspace dev_name
  | getLinkIngressDataFormatTailspace dev_name | unsetLogicalEpConfig dev_name | getLogicalEpConfig dev_name _ =>
    [dev_name]
  | setLogicalEpConfig dev_name next_dev => [dev_name, next_dev]
  | newVndPrefix .. | getVndName _ | addDelVndTcFlow => []

/-- All the strings that go into the request. -/
def strings : RmnetCall → List (List UInt8)
  | newVndPrefix new_vnd pre => if new_vnd then pre.toList else []
  | c => c.names.filterMap id

/-- The use of the reply. -/
def use (max : ℕ) : RmnetCall → ReplyUse
  | getNetworkDeviceAssociated _ | getLinkEgressDataFormat _ | getLinkIngressDataFormatTailspace _ => .data
  | getLogicalEpConfig _ next_dev_len => .name (min max next_dev_len) fun len => max < len
  | getVndName buflen => .name buflen fun len => buflen ≤ len % 2 ^ 32
  | _ => .code

/-- The length of the caller's buffer. -/
def buffer : RmnetCall → Option ℕ
  | getLogicalEpConfig _ next_dev_len => some next_dev_len
  | getVndName buflen => some buflen
  | _ => none

/-- `_rmnetctl_check_dev_name`. -/
def checkDevName (max : ℕ) : Option (List UInt8) → Bool
  | none => false
  | some dev_name => dev_name.length < max

/-- `_rmnetctl_set_codes`, of a reply to the request. -/
def setCodes (request : List (List UInt8)) (error_val : ℕ) : RmnetResult :=
  if error_val = 0 then { code := rmnetctlSuccess, request := some request }
  else { code := rmnetctlKernelErr, error := some (.kernel error_val), request := some request }

/-- What is returned for a reply. -/
def answer (request : List (List UInt8)) (reply : RmnetNlMsg) : ReplyUse → RmnetResult
  | .code =>
    match reply.crd with
    | .returnCode => setCodes request reply.return_code
    | _ => { code := rmnetctlLibErr, error := some .returnType, request := some request }
  | .data =>
    match reply.crd with
    | .returnData => { code := rmnetctlSuccess, request := some request }
    | .returnCode => setCodes request reply.return_code
    | .command => { code := rmnetctlLibErr, error := some .returnType, request := some request }
  | .name size tooLong =>
    match reply.crd with
    | .returnData =>
      let copied := strlcpy reply.name size
      if tooLong copied.1 then
        { code := rmnetctlLibErr, error := some .stringTruncation, request := some request, output := some copied.2 }
      else { code := rmnetctlSuccess, request := some request, output := some copied.2 }
    | .returnCode => setCodes request reply.return_code
    | .command => { code := rmnetctlLibErr, error := some .returnType, request := some request }

/-- A call: the checks of the arguments, the copies with `_rmnetctl_check_len`, the transaction and the reply. `valid`
is the check of the arguments that are no strings, and `transact` what `rmnetctl_transact` returns. -/
def run (c : RmnetCall) (max : ℕ) (valid : Bool) (transact : Except RmnetError RmnetNlMsg) : RmnetResult :=
  if !valid || c.buffer == some 0 || !c.names.all (checkDevName max) then { code := rmnetctlInvalidArg }
  else if c.strings.any fun s => max < (strlcpy s max).1 then
    { code := rmnetctlLibErr, error := some .stringTruncation }
  else
    let request := c.strings.map fun s => (strlcpy s max).2
    match transact with
    | .error e => { code := rmnetctlLibErr, error := some e, request := some request }
    | .ok reply => answer request reply (c.use max)

/-- The call fails because of its arguments, or because a string is too long. -/
def Fails (r : RmnetResult) : Prop :=
  r.code = rmnetctlInvalidArg ∨ r.code = rmnetctlLibErr ∧ r.error = some .stringTruncation

/-- **No string is cut off silently**: a call that succeeds has transferred the strings with their ends, and a string
that does not fit makes the call fail, one of the request before it is sent. -/
structure Transfers (c : RmnetCall) (max : ℕ) (valid : Bool) (transact : Except RmnetError RmnetNlMsg) : Prop where
  whole : (c.run max valid transact).code = rmnetctlSuccess →
    (c.run max valid transact).request = some (c.strings.map (· ++ [0])) ∧
      ∀ size ∈ c.buffer, ∃ reply, transact = .ok reply ∧ (c.run max valid transact).output = some (reply.name ++ [0])
  request : ∀ s ∈ c.strings, max ≤ s.length →
    Fails (c.run max valid transact) ∧ (c.run max valid transact).request = none
  output : ∀ size ∈ c.buffer, ∀ reply, transact = .ok reply → reply.crd = .returnData → size ≤ reply.name.length →
    Fails (c.run max valid transact)

/-- The arguments pass the checks. -/
def Checked (c : RmnetCall) (max : ℕ) (valid : Bool) : Prop :=
  valid = true ∧ c.buffer ≠ some 0 ∧ c.names.all (checkDevName max) = true

/-- A reply to a call for a name has no return code that says that all went well. -/
def NoCode (reply : RmnetNlMsg) : Prop := reply.crd = .returnCode → reply.return_code ≠ 0

/-- **The condition**, for a call whose arguments pass the checks: a prefix has not exactly the maximal length, a name
is not answered with a return code of 0, and that of the next device fits in the field and in the buffer, unless it is
longer than the maximum. -/
def Spares (c : RmnetCall) (max : ℕ) (valid : Bool) (transact : Except RmnetError RmnetNlMsg) : Prop :=
  c.Checked max valid →
    match c with
    | newVndPrefix new_vnd pre => new_vnd = true → ∀ s ∈ pre, s.length ≠ max
    | getLogicalEpConfig _ next_dev_len => ∀ reply, transact = .ok reply → NoCode reply ∧
        (reply.crd = .returnData → reply.name.length < min max next_dev_len ∨ max < reply.name.length)
    | getVndName _ => ∀ reply, transact = .ok reply → NoCode reply
    | _ => True

variable {c : RmnetCall} {max : ℕ} {valid : Bool} {transact : Except RmnetError RmnetNlMsg}

theorem run_of_checked (hchecked : c.Checked max valid) : c.run max valid transact =
    if c.strings.any fun s => max < (strlcpy s max).1 then
      { code := rmnetctlLibErr, error := some .stringTruncation }
    else
      match transact with
      | .error e =>
        { code := rmnetctlLibErr, error := some e, request := some (c.strings.map fun s => (strlcpy s max).2) }
      | .ok reply => answer (c.strings.map fun s => (strlcpy s max).2) reply (c.use max) := by
  obtain ⟨hvalid, hbuffer, hnames⟩ := hchecked
  rw [run, if_neg (by simp [hvalid, hbuffer, hnames])]

theorem transfers_of_not_checked (hchecked : ¬ c.Checked max valid) : c.Transfers max valid transact := by
  have hrun : c.run max valid transact = { code := rmnetctlInvalidArg } := by
    refine (rfl : c.run max valid transact = _).trans (if_pos ?_)
    refine Decidable.of_not_not fun hpass => hchecked ?_
    simpa [Checked, and_assoc] using hpass
  refine ⟨fun hcode => ?_, fun _ _ _ => ?_, fun _ _ _ _ _ _ => ?_⟩
  · rw [hrun] at hcode
    cases hcode
  · rw [hrun]
    exact ⟨.inl rfl, rfl⟩
  · rw [hrun]
    exact .inl rfl

theorem names_fit (hchecked : c.Checked max valid) (hc : c.strings = c.names.filterMap id) :
    ∀ s ∈ c.strings, s.length < max := by
  intro s hs
  rw [hc] at hs
  obtain ⟨name, hname, heq⟩ := mem_filterMap.mp hs
  have hcheck := all_eq_true.mp hchecked.2.2 name hname
  rw [show name = some s from heq] at hcheck
  simpa [checkDevName] using hcheck

theorem answer_request (request : List (List UInt8)) (reply : RmnetNlMsg) (u : ReplyUse) :
    (answer request reply u).request = some request := by
  have hcodes : ∀ error_val, (setCodes request error_val).request = some request := by
    intro error_val
    rw [setCodes]
    split <;> rfl
  cases u with
  | code | data => cases hcrd : reply.crd <;> simp [answer, hcrd, hcodes]
  | name size tooLong =>
    cases hcrd : reply.crd with
    | returnData =>
      simp only [answer, hcrd]
      split <;> rfl
    | command | returnCode => simp [answer, hcrd, hcodes]

theorem transfers_iff_of_fit (hchecked : c.Checked max valid) (hfit : ∀ s ∈ c.strings, s.length < max) :
    c.Transfers max valid transact ↔ ∀ size ∈ c.buffer, ∀ reply, transact = .ok reply →
      ((answer (c.strings.map (· ++ [0])) reply (c.use max)).code = rmnetctlSuccess →
        (answer (c.strings.map (· ++ [0])) reply (c.use max)).output = some (reply.name ++ [0])) ∧
      (reply.crd = .returnData → size ≤ reply.name.length →
        Fails (answer (c.strings.map (· ++ [0])) reply (c.use max))) := by
  have hmap : (c.strings.map fun s => (strlcpy s max).2) = c.strings.map (· ++ [0]) :=
    map_congr_left fun s hs => (strlcpy_whole_iff s max).mpr (hfit s hs)
  have hrun : c.run max valid transact = _ := run_of_checked hchecked
  have hnone : ¬ (c.strings.any fun s => max < (strlcpy s max).1) = true := by
    rw [any_eq_true]
    rintro ⟨s, hs, hlt⟩
    exact Nat.lt_asymm (hfit s hs) (of_decide_eq_true hlt)
  rw [if_neg hnone, hmap] at hrun
  cases transact with
  | error e =>
    refine iff_of_true ⟨fun hcode => ?_, fun s hs hle => absurd (hfit s hs) (Nat.not_lt.mpr hle), ?_⟩ ?_
    · rw [hrun] at hcode
      cases hcode
    · exact fun _ _ _ heq => nomatch heq
    · exact fun _ _ _ heq => nomatch heq
  | ok reply =>
    constructor
    · rintro ⟨hwhole, -, hout⟩ size hsize _ ⟨⟩
      rw [hrun] at hwhole hout
      refine ⟨fun hcode => ?_, hout size hsize reply rfl⟩
      obtain ⟨_, ⟨⟩, h⟩ := (hwhole hcode).2 size hsize
      exact h
    · intro h
      refine ⟨fun hcode => ?_, fun s hs hle => absurd (hfit s hs) (Nat.not_lt.mpr hle), ?_⟩
      · rw [hrun] at hcode ⊢
        exact ⟨answer_request .., fun size hsize => ⟨reply, rfl, (h size hsize reply rfl).1 hcode⟩⟩
      · rw [hrun]
        exact fun size hsize _ heq => heq ▸ (h size hsize _ heq).2

theorem answer_name_iff (request : List (List UInt8)) (reply : RmnetNlMsg) (size limit : ℕ) (tooLong : ℕ → Bool) :
    ((answer request reply (.name limit tooLong)).code = rmnetctlSuccess →
        (answer request reply (.name limit tooLong)).output = some (reply.name ++ [0])) ∧
      (reply.crd = .returnData → size ≤ reply.name.length → Fails (answer request reply (.name limit tooLong))) ↔
    NoCode reply ∧ (reply.crd = .returnData → tooLong reply.name.length = false →
      reply.name.length < limit ∧ reply.name.length < size) := by
  have hwhole := strlcpy_whole_iff reply.name limit
  cases hcrd : reply.crd with
  | command => simp [answer, NoCode, hcrd]
  | returnCode =>
    by_cases hzero : reply.return_code = 0
    · simp [answer, NoCode, hcrd, setCodes, hzero]
    · simp [answer, NoCode, hcrd, setCodes, hzero]
  | returnData =>
    cases hlong : tooLong reply.name.length with
    | true => simp [answer, NoCode, hcrd, Fails, hlong]
    | false => simp [answer, NoCode, hcrd, Fails, hlong, hwhole]

theorem transfers_prefix_iff {p : List UInt8} (hchecked : c.Checked max valid) (hstrings : c.strings = [p])
    (hbuffer : c.buffer = none) : c.Transfers max valid transact ↔ p.length ≠ max := by
  rcases Nat.lt_trichotomy p.length max with hlt | heq | hgt
  · rw [transfers_iff_of_fit hchecked (by simpa [hstrings] using hlt)]
    exact iff_of_true (by simp [hbuffer]) (Nat.ne_of_lt hlt)
  · refine iff_of_false (fun h => ?_) fun h => h heq
    have hnone := (h.request p (by simp [hstrings]) (Nat.le_of_eq heq.symm)).2
    rw [run_of_checked hchecked, if_neg (by simp [hstrings, heq])] at hnone
    cases transact with
    | error e => cases hnone
    | ok reply => simp [answer_request] at hnone
  · have hrun : c.run max valid transact = { code := rmnetctlLibErr, error := some .stringTruncation } := by
      rw [run_of_checked hchecked, if_pos (by simp [hstrings, hgt])]
    refine iff_of_true ⟨fun hcode => ?_, fun _ _ _ => ?_, by simp [hbuffer]⟩ (Nat.ne_of_gt hgt)
    · rw [hrun] at hcode
      cases hcode
    · rw [hrun]
      exact ⟨.inr ⟨rfl, rfl⟩, rfl⟩

/-- **When no string is cut off silently**, for every call. -/
theorem transfers_iff (c : RmnetCall) (max : ℕ) (valid : Bool) (transact : Except RmnetError RmnetNlMsg) :
    c.Transfers max valid transact ↔ c.Spares max valid transact := by
  by_cases hchecked : c.Checked max valid
  · cases c with
    | newVndPrefix new_vnd pre =>
      rw [Spares, forall_prop_of_true hchecked]
      match new_vnd, pre with
      | true, some p => simpa using transfers_prefix_iff hchecked rfl rfl
      | true, none | false, _ =>
        rw [transfers_iff_of_fit hchecked (by simp [strings])]
        exact iff_of_true (by simp [buffer]) (by simp)
    | getLogicalEpConfig dev_name next_dev_len =>
      rw [Spares, forall_prop_of_true hchecked, transfers_iff_of_fit hchecked (names_fit hchecked rfl)]
      simp only [buffer, use, Option.mem_some_iff, forall_eq', answer_name_iff]
      refine forall₂_congr fun reply _ => and_congr_right fun _ => imp_congr_right fun _ => ?_
      simp only [decide_eq_false_iff_not]
      omega
    | getVndName buflen =>
      rw [Spares, forall_prop_of_true hchecked, transfers_iff_of_fit hchecked (names_fit hchecked rfl)]
      simp only [buffer, use, Option.mem_some_iff, forall_eq', answer_name_iff]
      refine forall₂_congr fun reply _ => and_iff_left fun _ hfits => ?_
      rw [Nat.mod_eq_of_lt reply.name_lt] at hfits
      simpa using hfits
    | _ =>
      rw [transfers_iff_of_fit hchecked (names_fit hchecked rfl)]
      exact iff_of_true (by simp [buffer]) fun _ => trivial
  · exact iff_of_true (transfers_of_not_checked hchecked) fun h => absurd h hchecked

/-- With a maximum of 16, a prefix of 16 bytes is sent without its last one. -/
theorem not_transfers_prefix : ¬ (newVndPrefix true (some (List.replicate 16 114))).Transfers 16 true
    (.ok { crd := .returnCode, message_type := 0 }) := by
  rintro ⟨hwhole, -, -⟩
  exact absurd (hwhole (by decide)).1 (by decide)

end RmnetCall

end Marlin

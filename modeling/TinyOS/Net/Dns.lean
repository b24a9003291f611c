import TinyOS.Net.DnsName
import Mathlib.Data.List.Induction

/-!
# The resolver

`send_dns_query` and `handle_dns_response`. There is one query at a time, which is outstanding until an
answer is stored or the next query is sent. An answer should be bound to the question: it comes from the
server, to the port and with the transaction ID of the query, in an A record whose owner is the name of
the query or the end of a chain of CNAME records that starts there.

The resolver compares names as strings and decodes the target of a CNAME without looking at the length
of the record. In every run the answers are bound to their questions as long as no name of a response
has a label with a dot or a zero and the target of each CNAME record ends within the record.
-/

namespace TinyOS.Net.Dns

open Lib List

open Firewall (Packet)

def sizeofDnsHeader : Nat := 12
def sizeofDnsQuestion : Nat := 4
def sizeofDnsRr : Nat := 10
def dnsQtypeA : UInt16 := 1
def dnsQtypeCname : UInt16 := 5
def dnsQclassIn : UInt16 := 1

/-! ## Responses -/

def qdcount (d : Packet) : Nat := (d.half 4).toNat

def ancount (d : Packet) : Nat := (d.half 6).toNat

/-- The loop over the questions: the position after them, if all have the name of the query. -/
def checkQuestions (d : Packet) (queried : List UInt8) : (count : Nat) → (pos : Nat) → Option Nat
  | 0, pos => some pos
  | count + 1, pos =>
    match dnsLabelToDomain d pos with
    | none => none
    | some question =>
      if sameText question queried = false then none
      else
        match skipDnsName d pos with
        | none => none
        | some stop =>
          if d.length < stop + sizeofDnsQuestion then none
          else checkQuestions d queried count (stop + sizeofDnsQuestion)

/-- A resource record as the code reads it. -/
structure Rr where
  owner : List UInt8
  type : UInt16
  rclass : UInt16
  /-- Where its data begins. -/
  rdata : Nat
  dataLen : Nat
  deriving DecidableEq, Repr

def readRr (d : Packet) (pos : Nat) : Option Rr :=
  match skipDnsName d pos with
  | none => none
  | some header =>
    match dnsLabelToDomain d pos with
    | none => none
    | some owner =>
      if d.length < header + sizeofDnsRr then none
      else if d.length < header + sizeofDnsRr + (d.half (header + 8)).toNat then none
      else
        some
          { owner := owner
            type := d.half header
            rclass := d.half (header + 2)
            rdata := header + sizeofDnsRr
            dataLen := (d.half (header + 8)).toNat }

def Rr.forTarget (rr : Rr) (target : List UInt8) : Bool :=
  decide (rr.rclass = dnsQclassIn) && sameText rr.owner target

/-- The loop over the answers. -/
def findAnswer (d : Packet) : (count : Nat) → (pos : Nat) → (target : List UInt8) → Option Ip
  | 0, _, _ => none
  | count + 1, pos, target =>
    match readRr d pos with
    | none => none
    | some rr =>
      if rr.type = dnsQtypeCname ∧ rr.forTarget target = true then
        match dnsLabelToDomain d rr.rdata with
        | none => none
        | some target => findAnswer d count (rr.rdata + rr.dataLen) target
      else if rr.type = dnsQtypeA ∧ rr.dataLen = 4 ∧ rr.forTarget target = true then
        some (d.word rr.rdata)
      else findAnswer d count (rr.rdata + rr.dataLen) target

/-- The variables of `dns.c`. -/
structure Resolver where
  dnsServer : Ip
  lastResolvedIp : Ip
  resolutionComplete : Bool
  lastDnsTid : UInt16
  lastDnsSrcPort : UInt16
  queryOutstanding : Bool
  lastQueriedDomain : List UInt8
  deriving DecidableEq, Repr

def resolverBooted : Resolver where
  dnsServer := 0x08080808
  lastResolvedIp := 0
  resolutionComplete := false
  lastDnsTid := 0
  lastDnsSrcPort := 0
  queryOutstanding := false
  lastQueriedDomain := []

/-- What `handle_udp` hands to `handle_dns_response`. -/
structure Response where
  srcIp : Ip
  destPort : UInt16
  data : Packet
  deriving DecidableEq, Repr

/-- `handle_dns_response`: the address that is stored. -/
def handleDnsResponse (s : Resolver) (r : Response) : Option Ip :=
  let d := r.data
  if d.length < sizeofDnsHeader then none
  else if r.srcIp ≠ s.dnsServer then none
  else if s.queryOutstanding = false then none
  else if r.destPort ≠ s.lastDnsSrcPort then none
  else if d.half 0 ≠ s.lastDnsTid then none
  else if d.half 2 &&& 0x8000 = 0 then none
  else if d.half 2 &&& 0x000F ≠ 0 then none
  else
    match checkQuestions d s.lastQueriedDomain (qdcount d) sizeofDnsHeader with
    | none => none
    | some pos =>
      if qdcount d = 0 then none else findAnswer d (ancount d) pos s.lastQueriedDomain

/-! ## Queries -/

/-- The labels of a name, each with its length, behind what is in the buffer. -/
def encodeLabels (bufferSize : Nat) : (buffer : List UInt8) → Name → Option (List UInt8)
  | buffer, [] => some buffer
  | buffer, [l] =>
    if maxDnsLabelLen < l.length then none
    else if bufferSize ≤ buffer.length + 1 + l.length + 1 then none
    else some (buffer ++ UInt8.ofNat l.length :: l ++ [0])
  | buffer, l :: rest =>
    if maxDnsLabelLen < l.length then none
    else if bufferSize ≤ buffer.length + 1 + l.length then none
    else encodeLabels bufferSize (buffer ++ UInt8.ofNat l.length :: l) rest

def domainToDnsLabel (domain : List UInt8) (bufferSize : Nat) : Option (List UInt8) :=
  if maxDomainNameLen < domain.length then none
  else encodeLabels bufferSize [] (domain.splitOn dot)

/-- The bytes of a C string. -/
abbrev CString := { bytes : List UInt8 // 0 ∉ bytes }

/-- A call of `send_dns_query`, with the two random words it draws and whether there is a route. -/
structure Query where
  domain : CString
  tidBytes : UInt16
  randomPortBytes : UInt16
  routed : Bool
  deriving DecidableEq

def Query.tid (q : Query) : UInt16 := if q.tidBytes = 0 then 1 else q.tidBytes

def Query.srcPort (q : Query) : UInt16 := 49152 + q.randomPortBytes % 16384

/-- The name that is asked for. -/
def Query.name (q : Query) : Name := q.domain.1.splitOn dot

/-- The checks after which the query leaves. -/
def Query.leaves (q : Query) (s : Resolver) : Bool :=
  decide (q.domain.1 ≠ []) && decide (q.domain.1.length ≤ maxDomainNameLen) &&
    decide (s.dnsServer ≠ 0) && (domainToDnsLabel q.domain.1 (512 - sizeofDnsHeader)).isSome && q.routed

def sendDnsQuery (s : Resolver) (q : Query) : Resolver :=
  let s := { s with resolutionComplete := false, queryOutstanding := false, lastResolvedIp := 0 }
  if q.domain.1 = [] then s
  else if maxDomainNameLen < q.domain.1.length then s
  else
    let s := { s with lastQueriedDomain := q.domain.1 }
    if s.dnsServer = 0 then s
    else
      let s := { s with lastDnsTid := q.tid }
      if domainToDnsLabel q.domain.1 (512 - sizeofDnsHeader) = none then s
      else if q.routed = false then s
      else { s with lastDnsSrcPort := q.srcPort, queryOutstanding := true }

def dnsGetResolvedIp (s : Resolver) : Option Ip :=
  if s.resolutionComplete then some s.lastResolvedIp else none

/-! ## Runs -/

inductive Event
  | query (q : Query)
  | setDnsServer (ip : Ip)
  | response (r : Response)

def dnsStep (s : Resolver) : Event → Resolver
  | .query q => sendDnsQuery s q
  | .setDnsServer ip => { s with dnsServer := ip }
  | .response r =>
    match handleDnsResponse s r with
    | none => s
    | some ip => { s with lastResolvedIp := ip, resolutionComplete := true, queryOutstanding := false }

/-- The resolver after these events. -/
def dnsRun (events : List Event) : Resolver := events.foldl dnsStep resolverBooted

theorem dnsRun_concat (events : List Event) (e : Event) :
    dnsRun (events ++ [e]) = dnsStep (dnsRun events) e := by
  rw [dnsRun, foldl_append]
  rfl

/-! ## What an answer should be -/

/-- A record that stands wholly inside the message. -/
structure Record (d : Packet) where
  start : Nat
  owner : Name
  header : Nat
  named : NameAt d start owner
  ends : NameEnds d start header
  whole : header + sizeofDnsRr + (d.half (header + 8)).toNat ≤ d.length

namespace Record

variable {d : Packet}

def type (r : Record d) : UInt16 := d.half r.header

def rclass (r : Record d) : UInt16 := d.half (r.header + 2)

def rdata (r : Record d) : Nat := r.header + sizeofDnsRr

def dataLen (r : Record d) : Nat := (d.half (r.header + 8)).toNat

/-- Where the next record begins. -/
def stop (r : Record d) : Nat := r.rdata + r.dataLen

end Record

/-- So many questions end here. -/
inductive QuestionsEnd (d : Packet) : Nat → Nat → Prop
  | none : QuestionsEnd d 0 sizeofDnsHeader
  | next {n pos stop : Nat} : QuestionsEnd d n pos → NameEnds d pos stop →
      QuestionsEnd d (n + 1) (stop + sizeofDnsQuestion)

/-- After so many answers the next record begins here. -/
inductive AnswersEnd (d : Packet) : Nat → Nat → Prop
  | none {pos : Nat} : QuestionsEnd d (qdcount d) pos → AnswersEnd d 0 pos
  | next {n : Nat} (r : Record d) : AnswersEnd d n r.start → AnswersEnd d (n + 1) r.stop

/-- The record is in the answer section. -/
def Record.IsAnswer {d : Packet} (r : Record d) : Prop := ∃ n < ancount d, AnswersEnd d n r.start

/-- The record's data are a name that ends within them. -/
def Record.Target {d : Packet} (r : Record d) (target : Name) : Prop :=
  NameAt d r.rdata target ∧ ∃ stop, NameEnds d r.rdata stop ∧ stop ≤ r.stop

/-- The name is that of the query or the end of a chain of CNAME records. -/
inductive Reached (d : Packet) (queried : Name) : Name → Prop
  | queried : Reached d queried queried
  | cname {name target : Name} (r : Record d) : Reached d queried name → r.IsAnswer →
      r.type = dnsQtypeCname → r.rclass = dnsQclassIn → SameName r.owner name → r.Target target →
        Reached d queried target

/-- The address comes from this record, which answers a query for the name. -/
structure Answers {d : Packet} (r : Record d) (queried : Name) (ip : Ip) : Prop where
  isAnswer : r.IsAnswer
  type : r.type = dnsQtypeA
  rclass : r.rclass = dnsQclassIn
  dataLen : r.dataLen = 4
  address : ip = d.word r.rdata
  owner : ∃ name, Reached d queried name ∧ SameName r.owner name

/-- The query has been sent and nothing has been stored since. -/
inductive Outstanding : List Event → Query → Prop
  | sent {events : List Event} {q : Query} : q.leaves (dnsRun events) = true →
      Outstanding (events ++ [.query q]) q
  | setDnsServer {events : List Event} {q : Query} (ip : Ip) : Outstanding events q →
      Outstanding (events ++ [.setDnsServer ip]) q
  | response {events : List Event} {q : Query} (r : Response) : Outstanding events q →
      handleDnsResponse (dnsRun events) r = none → Outstanding (events ++ [.response r]) q

/-- After these events, the response answers a query with this address. -/
structure Bound (events : List Event) (q : Query) (r : Response) (ip : Ip) : Prop where
  outstanding : Outstanding events q
  server : r.srcIp = (dnsRun events).dnsServer
  port : r.destPort = q.srcPort
  tid : r.data.half 0 = q.tid
  answer : ∃ record : Record r.data, Answers record q.name ip

/-! ## When it is -/

/-- The names that count have labels without dots and zeros, and a target ends within its record. -/
structure CleanResponse (d : Packet) : Prop where
  owner : ∀ r : Record d, r.IsAnswer → r.rclass = dnsQclassIn →
    r.type = dnsQtypeA ∨ r.type = dnsQtypeCname → CleanName r.owner
  target : ∀ r : Record d, r.IsAnswer → r.rclass = dnsQclassIn → r.type = dnsQtypeCname →
    ∀ target, NameAt d r.rdata target → CleanName target ∧ r.Target target

theorem checkQuestions_spec {d : Packet} {queried : List UInt8} {count done pos stop : Nat}
    (h : checkQuestions d queried count pos = some stop) (hdone : QuestionsEnd d done pos) :
    QuestionsEnd d (done + count) stop := by
  fun_induction checkQuestions d queried count pos generalizing done with
  | case1 pos =>
    rw [← Option.some.inj h]
    exact hdone
  | case6 count pos question _ _ next hskip _ ih =>
    have hnext := ih h (.next hdone (skipDnsName_spec hskip))
    rw [Nat.add_right_comm, Nat.add_assoc] at hnext
    exact hnext
  | _ => cases h

theorem readRr_spec {d : Packet} {pos : Nat} {rr : Rr} (h : readRr d pos = some rr) :
    ∃ r : Record d, r.start = pos ∧ rr.owner = [dot].intercalate r.owner ∧ rr.type = r.type ∧
      rr.rclass = r.rclass ∧ rr.rdata = r.rdata ∧ rr.dataLen = r.dataLen := by
  revert h
  fun_cases readRr d pos <;> intro h
  case case5 header hskip owner hdecode _ hwhole =>
    obtain ⟨name, hname, howner⟩ := dnsLabelToDomain_spec hdecode
    rw [← Option.some.inj h]
    exact ⟨⟨pos, name, header, hname, skipDnsName_spec hskip, Nat.le_of_not_lt hwhole⟩,
      rfl, howner, rfl, rfl, rfl, rfl⟩
  all_goals cases h

section loop

variable {d : Packet} {queried : Name}

/-- A record for the target has, as its owner, the name that the target stands for. -/
theorem sameName_of_forTarget {r : Record d} {rr : Rr} {target : List UInt8} {name : Name}
    (howner : rr.owner = [dot].intercalate r.owner) (hclass : rr.rclass = r.rclass)
    (hspells : Spells target name) (hclean : r.rclass = dnsQclassIn → CleanName r.owner)
    (h : rr.forTarget target = true) : r.rclass = dnsQclassIn ∧ SameName r.owner name := by
  rw [Rr.forTarget, Bool.and_eq_true, decide_eq_true_eq, hclass, howner] at h
  exact ⟨h.1, (r.named.spells (hclean h.1)).same_name hspells h.2⟩

theorem findAnswer_spec (hclean : CleanResponse d) {count done pos : Nat} {target : List UInt8}
    {ip : Ip} (h : findAnswer d count pos target = some ip) (hdone : AnswersEnd d done pos)
    (hcount : done + count = ancount d)
    (htarget : ∃ name, Reached d queried name ∧ Spells target name) :
    ∃ r : Record d, Answers r queried ip := by
  induction count generalizing done pos target with
  | zero => cases h
  | succ count ih =>
    simp only [findAnswer] at h
    split at h
    · cases h
    rename_i rr hread
    obtain ⟨r, rfl, howner, htype, hclass, hrdata, hlen⟩ := readRr_spec hread
    have hanswer : r.IsAnswer := ⟨done, by omega, hdone⟩
    have hnext : AnswersEnd d (done + 1) (rr.rdata + rr.dataLen) := by
      rw [hrdata, hlen]
      exact .next r hdone
    obtain ⟨name, hreached, hspells⟩ := htarget
    split at h
    · -- A CNAME record for the target: its own target takes its place.
      rename_i hcname
      have hisCname : r.type = dnsQtypeCname := htype ▸ hcname.1
      have hsame := sameName_of_forTarget howner hclass hspells
        (fun hin => hclean.owner r hanswer hin (.inr hisCname)) hcname.2
      split at h
      · cases h
      rename_i text hdecode
      rw [hrdata] at hdecode
      obtain ⟨next, hname, rfl⟩ := dnsLabelToDomain_spec hdecode
      have hnextClean := hclean.target r hanswer hsame.1 hisCname next hname
      refine ih h hnext (by omega) ⟨next, ?_, hname.spells hnextClean.1⟩
      exact .cname r hreached hanswer hisCname hsame.1 hsame.2 hnextClean.2
    · split at h
      · -- An A record for the target is the answer.
        rename_i ha
        have hisA : r.type = dnsQtypeA := htype ▸ ha.1
        have hsame := sameName_of_forTarget howner hclass hspells
          (fun hin => hclean.owner r hanswer hin (.inl hisA)) ha.2.2
        refine ⟨r, hanswer, hisA, hsame.1, hlen ▸ ha.2.1, ?_, name, hreached, hsame.2⟩
        rw [← Option.some.inj h, hrdata]
      · exact ih h hnext (by omega) ⟨name, hreached, hspells⟩

end loop

/-- The checks of `handle_dns_response` before it looks at the sections. -/
theorem handleDnsResponse_spec {s : Resolver} {r : Response} {ip : Ip}
    (h : handleDnsResponse s r = some ip) :
    r.srcIp = s.dnsServer ∧ s.queryOutstanding = true ∧ r.destPort = s.lastDnsSrcPort ∧
      r.data.half 0 = s.lastDnsTid ∧ ∃ pos, QuestionsEnd r.data (qdcount r.data) pos ∧
        findAnswer r.data (ancount r.data) pos s.lastQueriedDomain = some ip := by
  revert h
  fun_cases handleDnsResponse s r <;> intro h
  case case10 hserver houtstanding hport htid _ _ pos hquestions _ =>
    have hend := checkQuestions_spec hquestions .none
    rw [Nat.zero_add] at hend
    exact ⟨Decidable.not_not.mp hserver, Bool.not_eq_false _ ▸ houtstanding,
      Decidable.not_not.mp hport, Decidable.not_not.mp htid, pos, hend, h⟩
  all_goals cases h

/-- The variables hold what was asked. -/
structure Holds (s : Resolver) (q : Query) : Prop where
  srcPort : s.lastDnsSrcPort = q.srcPort
  tid : s.lastDnsTid = q.tid
  domain : s.lastQueriedDomain = q.domain.1
  nonempty : q.domain.1 ≠ []

theorem sendDnsQuery_outstanding {s : Resolver} {q : Query}
    (h : (sendDnsQuery s q).queryOutstanding = true) :
    q.leaves s = true ∧ Holds (sendDnsQuery s q) q := by
  revert h
  fun_cases sendDnsQuery s q <;> intro h
  case case6 hne hlen _ hserver _ hencode hrouted =>
    refine ⟨?_, rfl, rfl, rfl, hne⟩
    have hsome := Option.isSome_iff_ne_none.mpr hencode
    simp only [Query.leaves, hsome, Bool.and_eq_true, decide_eq_true_eq, and_true]
    exact ⟨⟨⟨hne, Nat.le_of_not_lt hlen⟩, hserver⟩, Bool.not_eq_false _ ▸ hrouted⟩
  all_goals cases h

/-- While the flag is set, the last query is outstanding and the variables hold it. -/
theorem outstanding_of_flag {events : List Event} (h : (dnsRun events).queryOutstanding = true) :
    ∃ q, Outstanding events q ∧ Holds (dnsRun events) q := by
  induction events using List.reverseRecOn with
  | nil => cases h
  | append_singleton events e ih =>
    rw [dnsRun_concat] at h ⊢
    cases e with
    | query q =>
      have hsent := sendDnsQuery_outstanding h
      exact ⟨q, .sent hsent.1, hsent.2⟩
    | setDnsServer ip =>
      obtain ⟨q, hout, hholds⟩ := ih h
      exact ⟨q, .setDnsServer ip hout, { hholds with }⟩
    | response r =>
      simp only [dnsStep] at h ⊢
      split at h
      · rename_i hnone
        obtain ⟨q, hout, hholds⟩ := ih h
        exact ⟨q, .response r hout hnone, hholds⟩
      · cases h

/-- An address that is stored from a clean response answers the query that is outstanding. -/
theorem bound_of_stored {events : List Event} {r : Response} {ip : Ip}
    (hclean : CleanResponse r.data) (h : handleDnsResponse (dnsRun events) r = some ip) :
    ∃ q, Bound events q r ip := by
  obtain ⟨hserver, hflag, hport, htid, pos, hquestions, hfind⟩ := handleDnsResponse_spec h
  obtain ⟨q, hout, hholds⟩ := outstanding_of_flag hflag
  rw [hholds.domain] at hfind
  have hspells := spells_splitOn hholds.nonempty q.domain.2
  refine ⟨q, hout, hserver, hport.trans hholds.srcPort, htid.trans hholds.tid, ?_⟩
  exact findAnswer_spec hclean hfind (.none hquestions) (Nat.zero_add _) ⟨q.name, .queried, hspells⟩

theorem dnsGetResolvedIp_sendDnsQuery (s : Resolver) (q : Query) :
    dnsGetResolvedIp (sendDnsQuery s q) = none := by
  have hcomplete : (sendDnsQuery s q).resolutionComplete = false := by
    fun_cases sendDnsQuery s q <;> rfl
  rw [dnsGetResolvedIp, hcomplete]
  rfl

/-- In a run in which every response is clean, the address that the resolver holds was stored from a
response to the last query. -/
theorem resolved_address_is_bound {events : List Event} {ip : Ip}
    (hclean : ∀ r, Event.response r ∈ events → CleanResponse r.data)
    (h : dnsGetResolvedIp (dnsRun events) = some ip) :
    ∃ before q r after, events = before ++ .response r :: after ∧ Bound before q r ip ∧
      ∀ q', Event.query q' ∉ after := by
  induction events using List.reverseRecOn with
  | nil => cases h
  | append_singleton events e ih =>
    have hbefore : ∀ r, Event.response r ∈ events → CleanResponse r.data :=
      fun r hr => hclean r (mem_append_left _ hr)
    -- A step that stores nothing leaves the address where it was.
    have hkept : (∀ q, e ≠ .query q) → dnsGetResolvedIp (dnsRun events) = some ip →
        ∃ before q r after, events ++ [e] = before ++ .response r :: after ∧ Bound before q r ip ∧
          ∀ q', Event.query q' ∉ after := by
      intro hquery hheld
      obtain ⟨before, q, r, after, rfl, hbound, hafter⟩ := ih hbefore hheld
      refine ⟨before, q, r, after ++ [e], by simp, hbound, fun q' hq' => ?_⟩
      rcases mem_append.mp hq' with hq' | hq'
      · exact hafter q' hq'
      · exact hquery q' (mem_singleton.mp hq').symm
    rw [dnsRun_concat] at h
    cases e with
    | query q =>
      rw [dnsStep, dnsGetResolvedIp_sendDnsQuery] at h
      cases h
    | setDnsServer server => exact hkept (fun _ => Event.noConfusion) h
    | response r =>
      simp only [dnsStep] at h
      split at h
      · exact hkept (fun _ => Event.noConfusion) h
      rename_i stored hstored
      have hip : stored = ip := Option.some.inj h
      subst hip
      have hthis : CleanResponse r.data := hclean r (mem_append_right _ mem_cons_self)
      obtain ⟨q, hbound⟩ := bound_of_stored hthis hstored
      exact ⟨events, q, r, [], rfl, hbound, fun _ => not_mem_nil⟩

/-! ## A response with one answer -/

theorem QuestionsEnd.unique {d : Packet} {n a b : Nat} (ha : QuestionsEnd d n a)
    (hb : QuestionsEnd d n b) : a = b := by
  induction ha generalizing b with
  | none =>
    cases hb with
    | none => rfl
  | next _ hends ih =>
    cases hb with
    | next hbefore hends' =>
      cases ih hbefore
      rw [hends.unique hends']

/-- The record that stands after the questions is the only answer. -/
theorem only_answer {d : Packet} {start header : Nat} {owner : Name} (hcount : ancount d = 1)
    (hquestions : QuestionsEnd d (qdcount d) start) (hname : NameAt d start owner)
    (hends : NameEnds d start header) {r : Record d} (h : r.IsAnswer) :
    r.owner = owner ∧ r.header = header := by
  obtain ⟨n, hn, hstart⟩ := h
  have hnamed := r.named
  have hended := r.ends
  generalize r.start = pos at hstart hnamed hended
  cases hstart with
  | none hend =>
    rw [hend.unique hquestions] at hnamed hended
    exact ⟨hnamed.unique hname, hended.unique hends⟩
  | next => omega

/-- A query for a.b. -/
def sampleQuery : Query where
  domain := ⟨[0x61, 0x2E, 0x62], by decide⟩
  tidBytes := 7
  randomPortBytes := 0
  routed := true

/-- A response to it: the header, the question and one A record with this owner. -/
def sampleData (owner : Packet) : Packet :=
  [0, 7, 0x80, 0, 0, 1, 0, 1, 0, 0, 0, 0] ++ [1, 0x61, 1, 0x62, 0, 0, 1, 0, 1] ++ owner ++
    [0, 1, 0, 1, 0, 0, 0, 60, 0, 4, 10, 7, 0, 9]

def sampleResponse (owner : Packet) : Response := ⟨0x08080808, 49152, sampleData owner⟩

/-- The owner is the name in the question. -/
def pointerOwner : Packet := [0xC0, 12]

/-- The owner is one label, which has a dot. -/
def dottedOwner : Packet := [3, 0x61, 0x2E, 0x62, 0]

theorem sampleQuestion_ends {d : Packet} (hd : d = sampleData pointerOwner ∨ d = sampleData dottedOwner) :
    QuestionsEnd d (qdcount d) 21 := by
  have hends : NameEnds d 12 17 := by
    rcases hd with rfl | rfl
    · exact @NameEnds.label _ 12 17 ⟨by decide, by decide, by decide⟩
        (@NameEnds.label _ 14 17 ⟨by decide, by decide, by decide⟩ (.root (by decide) (by decide)))
    · exact @NameEnds.label _ 12 17 ⟨by decide, by decide, by decide⟩
        (@NameEnds.label _ 14 17 ⟨by decide, by decide, by decide⟩ (.root (by decide) (by decide)))
  have hcount : qdcount d = 1 := by
    rcases hd with rfl | rfl
    · decide
    · decide
  rw [hcount]
  exact .next .none hends

theorem pointerOwner_name : NameAt (sampleData pointerOwner) 21 [[0x61], [0x62]] := by
  refine .pointer (by decide) (by decide) ?_
  exact @NameAt.label _ 12 [[0x62]] ⟨by decide, by decide, by decide⟩
    (@NameAt.label _ 14 [] ⟨by decide, by decide, by decide⟩ (.root (by decide) (by decide)))

theorem dottedOwner_name : NameAt (sampleData dottedOwner) 21 [[0x61, 0x2E, 0x62]] :=
  @NameAt.label _ 21 [] ⟨by decide, by decide, by decide⟩ (.root (by decide) (by decide))

theorem pointerOwner_clean : CleanResponse (sampleData pointerOwner) := by
  have honly : ∀ r : Record (sampleData pointerOwner), r.IsAnswer →
      r.owner = [[0x61], [0x62]] ∧ r.header = 23 :=
    fun r => only_answer (by decide) (sampleQuestion_ends (.inl rfl)) pointerOwner_name
      (.pointer (by decide) (by decide))
  constructor
  · intro r hanswer _ _
    rw [(honly r hanswer).1]
    unfold CleanName
    decide
  · intro r hanswer _ hcname
    rw [Record.type, (honly r hanswer).2] at hcname
    exact absurd hcname (by decide)

theorem resolved_address_is_bound_for_sample :
    ∃ before q r after,
      [.query sampleQuery, .response (sampleResponse pointerOwner)] = before ++ .response r :: after ∧
        Bound before q r 0x0A070009 ∧ ∀ q', Event.query q' ∉ after := by
  refine resolved_address_is_bound ?_ (by decide +kernel)
  intro r hr
  rcases mem_cons.mp hr with hr | hr
  · cases hr
  · cases mem_singleton.mp hr
    exact pointerOwner_clean

/-- The address of a record whose owner is one label a.b is stored as that of the name a.b. -/
theorem dotted_label_is_taken_for_two :
    let events := [Event.query sampleQuery, .response (sampleResponse dottedOwner)]
    dnsGetResolvedIp (dnsRun events) = some 0x0A070009 ∧
      ¬∃ before q r after, events = before ++ .response r :: after ∧ Bound before q r 0x0A070009 := by
  refine ⟨by decide +kernel, ?_⟩
  rintro ⟨before, q, r, after, heq, hbound⟩
  have hsplit : before = [.query sampleQuery] ∧ r = sampleResponse dottedOwner := by
    match before, heq with
    | [_], heq =>
      cases heq
      exact ⟨rfl, rfl⟩
    | _ :: _ :: _, heq =>
      have hlength := congrArg List.length heq
      simp at hlength
  obtain ⟨rfl, rfl⟩ := hsplit
  have hq : q = sampleQuery := by
    have hout := hbound.outstanding
    generalize hevents : [Event.query sampleQuery] = events at hout
    cases hout with
    | @sent events' _ =>
      match events', hevents with
      | [], hevents => cases hevents; rfl
      | _ :: rest, hevents => simp at hevents
    | setDnsServer ip | response r => simp [singleton_eq_append_iff] at hevents
  obtain ⟨record, hanswers⟩ := hbound.answer
  have honly : ∀ r : Record (sampleData dottedOwner), r.IsAnswer →
      r.owner = [[0x61, 0x2E, 0x62]] ∧ r.header = 26 :=
    fun r => only_answer (by decide) (sampleQuestion_ends (.inr rfl)) dottedOwner_name
      (@NameEnds.label _ 21 26 ⟨by decide, by decide, by decide⟩ (.root (by decide) (by decide)))
  obtain ⟨name, hreached, hsame⟩ := hanswers.owner
  cases hreached with
  | queried =>
    rw [(honly record hanswers.isAnswer).1, hq] at hsame
    exact absurd hsame (by unfold SameName; decide)
  | cname r _ hanswer hcname =>
    rw [Record.type, (honly r hanswer).2] at hcname
    exact absurd hcname (by decide)

/-! ## The name in a query -/

/-- The labels, each behind its length. -/
def wire (name : Name) : List UInt8 := name.flatMap fun l => UInt8.ofNat l.length :: l

theorem encodeLabels_eq {bufferSize : Nat} {buffer e : List UInt8} {name : Name} (hne : name ≠ [])
    (h : encodeLabels bufferSize buffer name = some e) :
    e = buffer ++ wire name ++ [0] ∧ ∀ l ∈ name, l.length ≤ maxDnsLabelLen := by
  fun_induction encodeLabels bufferSize buffer name with
  | case1 => exact absurd rfl hne
  | case2 | case3 | case5 | case6 => cases h
  | case4 buffer l hlong =>
    cases h
    simp [wire]
    omega
  | case7 buffer l rest hlast hlong _ ih =>
    obtain ⟨rfl, hrest⟩ := ih (fun hnil => hlast hnil) h
    exact ⟨by simp [wire], forall_mem_cons.mpr ⟨Nat.le_of_not_lt hlong, hrest⟩⟩

/-- Where such bytes stand in a message, the name can be expanded, and it ends after the zero. -/
theorem wire_name {d pre post : List UInt8} {name : Name}
    (hlabels : ∀ l ∈ name, l ≠ [] ∧ l.length ≤ maxDnsLabelLen)
    (hd : d = pre ++ wire name ++ 0 :: post) :
    Expands d pre.length name ∧ NameEnds d pre.length (pre.length + (wire name).length + 1) := by
  induction name generalizing pre with
  | nil =>
    have hin : pre.length < d.length := by simp [hd, wire]
    have hzero : labelLen d pre.length = 0 := by simp [hd, wire, labelLen, Packet.byte]
    exact ⟨.root hin hzero, .root hin hzero⟩
  | cons l rest ih =>
    obtain ⟨⟨hne, hshort⟩, hrest⟩ := forall_mem_cons.mp hlabels
    have hlen : labelLen d pre.length = l.length := by
      rw [maxDnsLabelLen] at hshort
      simp [hd, wire, labelLen, Packet.byte]
      omega
    have hlabel : IsLabel d pre.length :=
      ⟨by simpa [hlen] using hne, hlen ▸ hshort, by
        rw [hlen, hd]
        simp only [wire, flatMap_cons, length_append, length_cons]
        omega⟩
    have hat : labelAt d pre.length = l := by
      rw [labelAt, hlen, hd]
      simp [wire, drop_append, drop_eq_nil_of_le (Nat.le_succ pre.length)]
    have hnext := @ih (pre ++ UInt8.ofNat l.length :: l) hrest (by simp [hd, wire])
    have hpos : (pre ++ UInt8.ofNat l.length :: l).length = pre.length + labelLen d pre.length + 1 := by
      simp [hlen]
      omega
    rw [hpos] at hnext
    refine ⟨hat ▸ .label hlabel hnext.1, ?_⟩
    convert NameEnds.label hlabel hnext.2 using 1
    simp [wire, hlen]
    omega

theorem two_mul_length_le {name : Name} (hne : ∀ l ∈ name, l ≠ []) :
    2 * name.length ≤ (name.map (·.length + 1)).sum := by
  induction name with
  | nil => simp
  | cons l rest ih =>
    obtain ⟨hl, hrest⟩ := forall_mem_cons.mp hne
    have := ih hrest
    have := length_pos_of_ne_nil hl
    simp only [length_cons, map_cons, sum_cons]
    omega

theorem Query.name_ne_nil (q : Query) : q.name ≠ [] := splitOn_ne_nil dot q.domain.1

theorem Query.joined (q : Query) : [dot].intercalate q.name = q.domain.1 :=
  intercalate_splitOn dot

theorem Query.sum_name (q : Query) : (q.name.map (·.length + 1)).sum = q.domain.1.length + 1 := by
  obtain ⟨l, rest, hname⟩ := exists_cons_of_ne_nil q.name_ne_nil
  rw [← length_flatMap_dot, hname, flatMap_pieces, ← hname, q.joined, length_append]
  rfl

/-- The bytes are one name, which is skipped as a whole and gives the string back. -/
structure RoundTrips (domain e : List UInt8) : Prop where
  wellFormed : ∃ name : Name, (∀ l ∈ name, l ≠ [] ∧ l.length ≤ maxDnsLabelLen) ∧ e = wire name ++ [0]
  skipped : skipDnsName e 0 = some e.length
  decoded : ∃ text, dnsLabelToDomain e 0 = some text ∧ (text = domain ∨ domain = text ++ [dot])

/-- A query that leaves can be read back if no label of its name is empty and the decoder has room. -/
theorem encoding_round_trips_iff {s : Resolver} {q : Query} (h : q.leaves s = true) :
    ∃ e, domainToDnsLabel q.domain.1 (512 - sizeofDnsHeader) = some e ∧
      (RoundTrips q.domain.1 e ↔ (∀ l ∈ q.name, l ≠ []) ∧ q.domain.1.length ≤ 251) := by
  have hencoded : (domainToDnsLabel q.domain.1 (512 - sizeofDnsHeader)).isSome = true := by
    simp only [Query.leaves, Bool.and_eq_true] at h
    exact h.1.2
  obtain ⟨e, he⟩ := Option.isSome_iff_exists.mp hencoded
  refine ⟨e, he, ?_⟩
  rw [domainToDnsLabel, Option.ite_none_left_eq_some] at he
  obtain ⟨he, hshort⟩ := encodeLabels_eq q.name_ne_nil he.2
  have hname (hne : ∀ l ∈ q.name, l ≠ []) := @wire_name e [] [] q.name
    (fun l hl => ⟨hne l hl, hshort l hl⟩) he
  constructor
  · intro htrip
    have hne : ∀ l ∈ q.name, l ≠ [] := by
      -- the name ends at the first empty label
      intro l hl hempty
      subst hempty
      obtain ⟨before, after, hsplit, hfirst⟩ := eq_append_cons_of_mem hl
      have hends := (@wire_name e [] (wire after ++ [0]) before
        (fun l hl => ⟨fun hnil => hfirst (hnil ▸ hl), hshort l (hsplit ▸ mem_append_left _ hl)⟩)
        (by simp [he, hsplit, wire])).2
      have := hends.unique (skipDnsName_spec htrip.skipped)
      simp [he, hsplit, wire] at this
    refine ⟨hne, ?_⟩
    obtain ⟨text, htext, -⟩ := htrip.decoded
    rw [dnsLabelToDomain, dnsLabelToDomainInto_iff] at htext
    obtain ⟨name, hexpands, -, hsum, -⟩ := htext
    rw [hexpands.nameAt.unique (hname hne).1.nameAt, q.sum_name, maxDomainNameLen] at hsum
    omega
  · rintro ⟨hne, hlength⟩
    obtain ⟨hexpands, hends⟩ := hname hne
    have hcount := two_mul_length_le hne
    rw [q.sum_name] at hcount
    have hlabels : q.name.length < maxDnsLabels := by
      rw [maxDnsLabels]
      omega
    refine ⟨⟨q.name, fun l hl => ⟨hne l hl, hshort l hl⟩, he⟩, ?_, q.domain.1, ?_, .inl rfl⟩
    · obtain ⟨stop, hstop⟩ := hexpands.skips hlabels
      rw [skipDnsName, show e.length = stop from ?_]
      · exact hstop
      · rw [(skipLabels_spec hstop).unique hends, he]
        simp
    · rw [dnsLabelToDomain, dnsLabelToDomainInto_iff]
      refine ⟨q.name, hexpands, hlabels, ?_, q.joined.symm⟩
      rw [q.sum_name, maxDomainNameLen]
      omega

theorem encoding_round_trips_iff_for_sample :
    ∃ e, domainToDnsLabel sampleQuery.domain.1 (512 - sizeofDnsHeader) = some e ∧
      RoundTrips sampleQuery.domain.1 e := by
  obtain ⟨e, he, hiff⟩ := @encoding_round_trips_iff resolverBooted sampleQuery (by decide)
  exact ⟨e, he, hiff.mpr ⟨by decide, by decide⟩⟩

/-- After the name a. with its dot come two zeros, of which the name has one. -/
theorem trailing_dot_is_not_one_name :
    let q : Query :=
      { domain := ⟨[0x61, dot], by decide⟩, tidBytes := 1, randomPortBytes := 0, routed := true }
    q.leaves resolverBooted = true ∧
      domainToDnsLabel q.domain.1 (512 - sizeofDnsHeader) = some [1, 0x61, 0, 0] ∧
        skipDnsName [1, 0x61, 0, 0] 0 = some 3 ∧ ¬RoundTrips q.domain.1 [1, 0x61, 0, 0] := by
  refine ⟨by decide, by decide, by decide, fun h => ?_⟩
  exact absurd h.skipped (by decide)

end TinyOS.Net.Dns

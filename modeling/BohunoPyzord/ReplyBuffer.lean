/-
The reply that a daemon writes over the request in its buffer.  `archive`
copies what fits of the lines, up to a NUL, and returns the length of all of
them; the value of `Thread` is the client's.
-/
import BohunoPyzord.PacketCodec
import BohunoPyzord.UdpServer
import Mathlib.Algebra.GroupWithZero.Nat

namespace BohunoPyzord

namespace Packet

/-- What is sent of a packet lies in the buffer, is the packet's lines and is
read back as the packet. -/
def SentWhole (p : Packet) (bufferSize : Nat) : Prop :=
  (p.archive bufferSize).2 ≤ bufferSize ∧
    (p.archive bufferSize).1.take (p.archive bufferSize).2 = p.text ∧
    (parse ((p.archive bufferSize).1.take (p.archive bufferSize).2)).1 = p

theorem assign_perm {name : Text} (value : Text)
    {entries : List (Text × Text)} (h : ∀ entry ∈ entries, entry.1 ≠ name) :
    (assign name value entries).Perm ((name, value) :: entries) := by
  induction entries with
  | nil => exact List.Perm.refl _
  | cons entry entries ih =>
      have hrest := ih fun other hother =>
        h other (List.mem_cons_of_mem entry hother)
      rw [assign]
      split_ifs with hbefore hsame
      · exact List.Perm.refl _
      · exact absurd hsame.symm (h entry List.mem_cons_self)
      · exact (hrest.cons entry).trans (List.Perm.swap _ _ _)

/-- The bytes of one line. -/
def lineLength (entry : Text × Text) : Nat :=
  entry.1.length + entry.2.length + 3

theorem text_length (p : Packet) :
    p.text.length = (p.attributes_.map lineLength).sum := by
  rw [text_eq, List.length_flatMap]
  congr 2
  funext entry
  simp only [line, lineLength, List.length_append]
  have hcolon : ": ".toList.length = 2 := by decide
  have hfeed : ['\n'].length = 1 := rfl
  omega

/-- A text of lines ends with a line feed. -/
theorem text_getLast? (p : Packet) : p.text.getLast? ≠ some '\x00' := by
  rw [text_eq]
  rcases List.eq_nil_or_concat p.attributes_ with hnil | ⟨most, last, hlast⟩
  · simp [hnil]
  · simp [hlast]

/-- A name that a program gives an attribute. -/
def SolidName (name : Text) : Prop :=
  name ≠ [] ∧ ∀ c ∈ name, isSpace c = false ∧ c ≠ '\x00'

instance (name : Text) : Decidable (SolidName name) :=
  inferInstanceAs (Decidable (_ ∧ _))

theorem plain_of_solidName {name value : Text} (hname : SolidName name)
    (hread : ReadValue value) (hnul : ∀ c ∈ value, c ≠ '\x00') :
    Plain (name, value) :=
  ⟨hname.1, hname.2, fun c hc => ⟨(hread.1 c hc).1, (hread.1 c hc).2,
    hnul c hc⟩, hread.2⟩

/-- The packet has the value under `Thread` and otherwise lines that survive
the way through a datagram; all but the value are `overhead` bytes. -/
structure Echoes (p : Packet) (thread : Text) (overhead : Nat) : Prop where
  echoed : ("Thread".toList, thread) ∈ p.attributes_
  own : ∀ entry ∈ p.attributes_,
    entry = ("Thread".toList, thread) ∨ Plain entry
  length : p.text.length = overhead + thread.length

theorem Echoes.set {p : Packet} {thread : Text} {overhead : Nat}
    (h : p.Echoes thread overhead) {name value : Text}
    (hplain : Plain (name, value))
    (hfresh : ∀ entry ∈ p.attributes_, entry.1 ≠ name) :
    (p.set name value).Echoes thread
      (overhead + lineLength (name, value)) := by
  have hperm := assign_perm value hfresh
  constructor
  · exact hperm.mem_iff.mpr (List.mem_cons_of_mem _ h.echoed)
  · intro entry hentry
    rcases List.mem_cons.mp (hperm.mem_iff.mp hentry) with rfl | hold
    · exact Or.inr hplain
    · exact h.own entry hold
  · have hlength := h.length
    rw [text_length] at hlength
    have hset : (p.set name value).text.length =
        lineLength (name, value) + (p.attributes_.map lineLength).sum := by
      rw [text_length]
      exact (hperm.map lineLength).sum_eq
    omega

/-- A value that was read from a line is sent back whole exactly when it has
no NUL in it and all lines fit. -/
theorem Echoes.sentWhole_iff {p : Packet} {thread : Text} {overhead : Nat}
    (h : p.Echoes thread overhead) (hread : ReadValue thread)
    (bufferSize : Nat) :
    p.SentWhole bufferSize ↔
      (∀ c ∈ thread, c ≠ '\x00') ∧ overhead + thread.length ≤ bufferSize := by
  rw [← h.length]
  constructor
  · rintro ⟨hfits, hcopied, -⟩
    apply And.intro _ hfits
    intro c hc
    apply not_nul_of_take_strncpy_eq hfits p.text_getLast? hcopied c
    rw [text_eq, List.mem_flatMap]
    exact ⟨_, h.echoed, by simp [line, hc]⟩
  · rintro ⟨hnul, hfits⟩
    have hplain : p.WellFormed := by
      intro entry hentry
      rcases h.own entry hentry with rfl | hown
      · exact plain_of_solidName (by decide) hread hnul
      · exact hown
    have hcopied := take_strncpy_eq hfits (not_nul_of_mem_text hplain)
    refine ⟨hfits, hcopied, ?_⟩
    change (parse ((strncpy p.text bufferSize).take p.text.length)).1 = p
    rw [hcopied, parse_text hplain]

theorem not_space_of_isDigit {c : Char} (h : c.isDigit = true) :
    isSpace c = false ∧ c ≠ '\x00' := by
  refine ⟨isSpace_eq_false_of_isDigit h, ?_⟩
  rintro rfl
  exact absurd h (by decide)

theorem decimal_plain {name : Text} (hname : SolidName name) (n : Nat) :
    Plain (name, decimal n) := by
  have hdigit : ∀ c ∈ decimal n, isSpace c = false ∧ c ≠ '\x00' :=
    fun c hc => not_space_of_isDigit (isDigit_of_mem_decimal hc)
  apply plain_of_solidName hname
  · constructor
    · exact fun c hc => not_break_of_solid (hdigit c hc).1
    · exact fun c hc => (hdigit c (List.mem_of_mem_head? hc)).1
  · exact fun c hc => (hdigit c hc).2

/-- The bytes of the lines with these names and numbers. -/
def numbersLength (values : List (String × Nat)) : Nat :=
  (values.map fun p => lineLength (p.1.toList, decimal p.2)).sum

/-- Numbers under new names are added to a reply. -/
theorem Echoes.setStatistics {p : Packet} {thread : Text} {overhead : Nat}
    (h : p.Echoes thread overhead) {values : List (String × Nat)}
    (hnodup : (values.map Prod.fst).Nodup)
    (hsolid : ∀ name ∈ values.map Prod.fst, SolidName name.toList)
    (hfresh : ∀ name ∈ values.map Prod.fst,
      ∀ entry ∈ p.attributes_, entry.1 ≠ name.toList) :
    (p.setStatistics values).Echoes thread
      (overhead + numbersLength values) := by
  induction values generalizing p overhead with
  | nil => exact h
  | cons first values ih =>
      rw [List.map_cons] at hnodup hsolid hfresh
      obtain ⟨hfirst, hrest⟩ := List.nodup_cons.mp hnodup
      have hset := h.set
        (decimal_plain (hsolid _ List.mem_cons_self) first.2)
        (hfresh _ List.mem_cons_self)
      have hall := ih hset hrest
        (fun name hname => hsolid name (List.mem_cons_of_mem _ hname))
      have hsum : overhead + numbersLength (first :: values) =
          overhead + lineLength (first.1.toList, decimal first.2) +
            numbersLength values := by
        simp only [numbersLength, List.map_cons, List.sum_cons]
        omega
      rw [hsum]
      apply hall
      intro name hname entry hentry
      rcases mem_set.mp hentry with rfl | ⟨hold, -⟩
      · intro hsame
        rw [String.toList_inj.mp hsame] at hfirst
        exact hfirst hname
      · exact hfresh name (List.mem_cons_of_mem _ hname) entry hold

end Packet

open Packet

/-- The value of `Thread` that a reply echoes. -/
def echoedThread (data : Text) : Text :=
  (Packet.parse data).1.get "Thread".toList

/-- The lines that every reply has. -/
def plainReply (req : Packet) (code diag : Text) : Packet :=
  (((Packet.empty.set "Thread".toList (req.get "Thread".toList)).set
    "PV".toList "2.0".toList).set "Code".toList code).set "Diag".toList diag

theorem badRequest_eq (req : Packet) :
    badRequest req = plainReply req "400".toList "Bad Request".toList := rfl

theorem okReply_eq (req : Packet) :
    okReply req = plainReply req "200".toList "OK".toList := by
  have hne : "Diag".toList ≠ "Code".toList := by decide
  rw [okReply, set_comm _ hne, plainReply]

theorem diagnose_okReply (req : Packet) (code diag : Text) :
    (okReply req).diagnose code diag = plainReply req code diag := by
  rw [okReply_eq, diagnose, plainReply]
  have hne : "Diag".toList ≠ "Code".toList := by decide
  rw [set_comm _ hne, set_set, set_set, plainReply]

theorem plainReply_attributes (req : Packet) (code diag : Text) :
    (plainReply req code diag).attributes_ =
      [("Code".toList, code), ("Diag".toList, diag),
        ("PV".toList, "2.0".toList),
        ("Thread".toList, req.get "Thread".toList)] := rfl

theorem plainReply_echoes (req : Packet) {code diag : Text}
    (hcode : Plain ("Code".toList, code)) (hdiag : Plain ("Diag".toList, diag))
    {overhead : Nat} (hlength : 31 + code.length + diag.length = overhead) :
    (plainReply req code diag).Echoes (req.get "Thread".toList) overhead := by
  have hversion : Plain ("PV".toList, "2.0".toList) := by decide
  constructor
  · simp [plainReply_attributes]
  · intro entry hentry
    rw [plainReply_attributes] at hentry
    simp only [List.mem_cons, List.not_mem_nil, or_false] at hentry
    rcases hentry with rfl | rfl | rfl | rfl
    · exact Or.inr hcode
    · exact Or.inr hdiag
    · exact Or.inr hversion
    · exact Or.inl rfl
  · rw [text_length, plainReply_attributes]
    simp only [List.map_cons, List.map_nil, List.sum_cons, List.sum_nil,
      lineLength]
    have hnames : "Code".toList.length = 4 ∧ "Diag".toList.length = 4 ∧
        "PV".toList.length = 2 ∧ "2.0".toList.length = 3 ∧
        "Thread".toList.length = 6 := by decide
    omega

theorem badRequest_echoes (req : Packet) :
    (badRequest req).Echoes (req.get "Thread".toList) 45 := by
  rw [badRequest_eq]
  exact plainReply_echoes req (by decide) (by decide) (by decide)

theorem versionNotSupported_echoes (req : Packet) :
    ((okReply req).diagnose "505".toList
      "Version Not Supported".toList).Echoes (req.get "Thread".toList) 55 := by
  rw [diagnose_okReply]
  exact plainReply_echoes req (by decide) (by decide) (by decide)

theorem unauthorized_echoes (req : Packet) :
    ((okReply req).diagnose "401".toList "Unauthorized".toList).Echoes
      (req.get "Thread".toList) 46 := by
  rw [diagnose_okReply]
  exact plainReply_echoes req (by decide) (by decide) (by decide)

theorem notSupported_echoes (req : Packet) :
    ((okReply req).diagnose "501".toList
      "Not supported operation".toList).Echoes (req.get "Thread".toList)
        57 := by
  rw [diagnose_okReply]
  exact plainReply_echoes req (by decide) (by decide) (by decide)

/-- Names that a reply does not have yet. -/
def NewNames (names : List String) : Prop :=
  names.Nodup ∧ ∀ name ∈ names, SolidName name.toList ∧
    name.toList ∉ ["Code".toList, "Diag".toList, "PV".toList, "Thread".toList]

instance (names : List String) : Decidable (NewNames names) :=
  inferInstanceAs (Decidable (_ ∧ _))

theorem okReply_echoes (req : Packet) (values : List (String × Nat))
    (hnames : NewNames (values.map Prod.fst)) :
    ((okReply req).setStatistics values).Echoes (req.get "Thread".toList)
      (36 + numbersLength values) := by
  have hok : (okReply req).Echoes (req.get "Thread".toList) 36 := by
    rw [okReply_eq]
    exact plainReply_echoes req (by decide) (by decide) (by decide)
  apply hok.setStatistics hnames.1 fun name hname => (hnames.2 name hname).1
  intro name hname entry hentry hsame
  apply (hnames.2 name hname).2
  rw [okReply_eq, plainReply_attributes] at hentry
  have hmem := List.mem_map_of_mem (f := Prod.fst) hentry
  rwa [hsame] at hmem

/-- The bytes of a reply but for the value of `Thread`, by what the request is:
`statistics` and `operation` are the numbers that it is answered with. -/
def replyOverhead (authorized : Bool) (statistics : List (String × Nat))
    (operation : Packet → Option (List (String × Nat))) (data : Text) : Nat :=
  let (req, ok) := Packet.parse data
  if !ok then 45
  else if req.get "PV".toList ≠ "2.0".toList then 55
  else
    let op := req.get "Op".toList
    if op = "shutdown".toList ∨ op = "statistics".toList then
      if !authorized then 46
      else if op = "shutdown".toList then 36
      else 36 + numbersLength statistics
    else
      match operation req with
      | some values => 36 + numbersLength values
      | none => 57

/-- Every reply echoes the value of `Thread`. -/
theorem answerRequest_echoes {S : Type} {count : S → S} {authorized : Bool}
    {statistics : S → Packet → S × Packet}
    {operation : Packet → S → Packet → Option (S × Packet × List Update)}
    {s : S} {values : List (String × Nat)}
    {numbers : Packet → Option (List (String × Nat))}
    (hvalues : NewNames (values.map Prod.fst))
    (hstatistics : ∀ res,
      (statistics (count s) res).2 = res.setStatistics values)
    (hnumbers : ∀ req, ∀ values ∈ numbers req,
      NewNames (values.map Prod.fst))
    (hoperation : ∀ req, (operation req (count s) (okReply req)).map
      (fun answer => answer.2.1) =
        (numbers req).map (okReply req).setStatistics) (data : Text) :
    (answerRequest count authorized statistics operation data s).res.Echoes
      (echoedThread data) (replyOverhead authorized values numbers data) := by
  rw [answerRequest, replyOverhead, echoedThread]
  generalize Packet.parse data = parsed
  obtain ⟨req, ok⟩ := parsed
  have hok : (okReply req).Echoes (req.get "Thread".toList) 36 :=
    okReply_echoes req [] (by decide)
  by_cases hwell : ok = true
  · subst hwell
    simp only [Bool.not_true, Bool.false_eq_true, ↓reduceIte]
    split_ifs with hversion hadmin hdenied hshutdown
    · exact versionNotSupported_echoes req
    · exact unauthorized_echoes req
    · exact hok
    · simp only [hstatistics]
      exact okReply_echoes req values hvalues
    · have hop := hoperation req
      cases hnumber : numbers req with
      | none =>
          rw [hnumber, Option.map_none, Option.map_eq_none_iff] at hop
          simp only [hop]
          exact notSupported_echoes req
      | some values =>
          rw [hnumber, Option.map_some, Option.map_eq_some_iff] at hop
          obtain ⟨⟨s', res, updates⟩, hanswer, rfl⟩ := hop
          simp only [hanswer]
          exact okReply_echoes req _ (hnumbers req values hnumber)
  · rw [Bool.not_eq_true] at hwell
    subst hwell
    exact badRequest_echoes req

theorem echoedThread_readValue (data : Text) :
    ReadValue (echoedThread data) :=
  get_readValue (parse_readValue data) _

namespace ServerState

/-- The numbers in the reply to `statistics`. -/
def statisticsLines (now : Readings) (s : ServerState) :
    List (String × Nat) :=
  [("Stats-Average-Requests", (s.request_statistics_.average (now 1)).1),
    ("Stats-Average-Checks", (s.check_statistics_.average (now 2)).1),
    ("Stats-Average-Hits", (s.hit_statistics_.average (now 3)).1),
    ("Stats-Average-Reports", (s.report_statistics_.average (now 4)).1),
    ("Stats-Average-Whitelists", (s.whitelist_statistics_.average (now 5)).1),
    ("Stats-Total-Requests", (s.request_statistics_.average (now 1)).2.total),
    ("Stats-Total-Checks", (s.check_statistics_.average (now 2)).2.total),
    ("Stats-Total-Hits", (s.hit_statistics_.average (now 3)).2.total),
    ("Stats-Total-Reports", (s.report_statistics_.average (now 4)).2.total),
    ("Stats-Total-Whitelists",
      (s.whitelist_statistics_.average (now 5)).2.total)]

theorem newNames_statisticsLines (now : Readings) (s : ServerState) :
    NewNames ((statisticsLines now s).map Prod.fst) := by
  change NewNames ["Stats-Average-Requests", "Stats-Average-Checks",
    "Stats-Average-Hits", "Stats-Average-Reports", "Stats-Average-Whitelists",
    "Stats-Total-Requests", "Stats-Total-Checks", "Stats-Total-Hits",
    "Stats-Total-Reports", "Stats-Total-Whitelists"]
  decide

/-- The numbers in the reply to `check`. -/
def checkLines (stored : Database) (now : Readings) (digest : Text) :
    List (String × Nat) :=
  let (found, r) := stored.get digest
  if found ∧ ¬ (r.count .report = 1 ∧
      (now 2 : Int) - r.entered.toNat > recordAge) then
    [("Count", (r.count .report).toNat),
      ("WL-Count", (r.count .whitelist).toNat)]
  else [("Count", 0), ("WL-Count", 0)]

/-- The numbers in the reply to an operation that is supported. -/
def operationLines (stored : Database) (now : Readings) (req : Packet) :
    Option (List (String × Nat)) :=
  let op := req.get "Op".toList
  if op = "check".toList then
    some (checkLines stored now (req.get "Op-Digest".toList))
  else if op = "report".toList then some []
  else if op = "whitelist".toList then some []
  else if op = "ping".toList then some []
  else none

/-- The bytes of the reply but for the value of `Thread`. -/
def overhead (stored : Database) (now : Readings) (data : Text)
    (sender : Endpoint) (s : ServerState) : Nat :=
  replyOverhead (s.authorizeAdminRequest sender)
    (statisticsLines now { s with
      request_statistics_ := s.request_statistics_.report (now 0) })
    (operationLines stored now) data

/-- Counts take the place of the zeros that were set before. -/
theorem setCounts_setCounts (req : Packet) (count whitelistCount : Nat) :
    ((okReply req).setCounts 0 0).setCounts count whitelistCount =
      (okReply req).setStatistics
        [("Count", count), ("WL-Count", whitelistCount)] := by
  have hne : "WL-Count".toList ≠ "Count".toList := by decide
  change ((((okReply req).set _ _).set _ _).set _ _).set _ _ =
    ((okReply req).set _ _).set _ _
  rw [set_comm _ hne, set_set, set_set]

theorem check_snd (stored : Database) (now : Readings) (digest : Text)
    (req : Packet) (s : ServerState) :
    (s.check stored now digest (okReply req)).2 =
      (okReply req).setStatistics (checkLines stored now digest) := by
  rw [check, checkLines]
  generalize stored.get digest = answer
  obtain ⟨found, r⟩ := answer
  cases found with
  | false => rfl
  | true =>
      by_cases hold : r.count .report = 1 ∧
          (now 2 : Int) - r.entered.toNat > recordAge
      · simp only [hold, ↓reduceIte]
        rfl
      · simp only [hold, ↓reduceIte, not_false_eq_true, and_self]
        exact setCounts_setCounts req _ _

theorem newNames_operationLines (stored : Database) (now : Readings)
    (req : Packet) :
    ∀ values ∈ operationLines stored now req,
      NewNames (values.map Prod.fst) := by
  intro values hvalues
  rw [operationLines] at hvalues
  have hcounts : NewNames ["Count", "WL-Count"] := by decide
  have hnone : NewNames [] := by decide
  split_ifs at hvalues with hcheck hreport hwhitelist hping
  · rw [← Option.some.inj hvalues, checkLines]
    generalize stored.get (req.get "Op-Digest".toList) = answer
    simp only
    split_ifs <;> exact hcounts
  · exact Option.some.inj hvalues ▸ hnone
  · exact Option.some.inj hvalues ▸ hnone
  · exact Option.some.inj hvalues ▸ hnone
  · cases hvalues

theorem operation_eq_lines (stored : Database) (now : Readings) (req : Packet)
    (s : ServerState) :
    (operation stored now req s (okReply req)).map
        (fun answer => answer.2.1) =
      (operationLines stored now req).map (okReply req).setStatistics := by
  rw [operation, operationLines]
  split_ifs with hcheck hreport hwhitelist hping
  · exact congrArg some (check_snd stored now _ req s)
  · rfl
  · rfl
  · rfl
  · rfl
  · rfl

theorem reply_echoes (stored : Database) (now : Readings) (data : Text)
    (sender : Endpoint) (s : ServerState) :
    (reply stored now data sender s).res.Echoes (echoedThread data)
      (overhead stored now data sender s) := by
  apply answerRequest_echoes (newNames_statisticsLines now _)
  · exact fun res => rfl
  · exact newNames_operationLines stored now
  · exact fun req => operation_eq_lines stored now req _

end ServerState

namespace PyzordState

/-- The numbers in the reply to `statistics`. -/
def statisticsLines (now : Readings) (s : PyzordState) :
    List (String × Nat) :=
  [("Stats-Average-Requests", (s.request_statistics_.average (now 1)).1),
    ("Stats-Average-Checks", (s.check_statistics_.average (now 2)).1),
    ("Stats-Average-Hits", (s.hit_statistics_.average (now 3)).1),
    ("Stats-Total-Requests", (s.request_statistics_.average (now 1)).2.total),
    ("Stats-Total-Checks", (s.check_statistics_.average (now 2)).2.total),
    ("Stats-Total-Hits", (s.hit_statistics_.average (now 3)).2.total)]

theorem newNames_statisticsLines (now : Readings) (s : PyzordState) :
    NewNames ((statisticsLines now s).map Prod.fst) := by
  change NewNames ["Stats-Average-Requests", "Stats-Average-Checks",
    "Stats-Average-Hits", "Stats-Total-Requests", "Stats-Total-Checks",
    "Stats-Total-Hits"]
  decide

/-- The numbers in the reply to `check`. -/
def checkLines (stored : Database) (digest : Text) : List (String × Nat) :=
  let r := (((Hash.ofHex digest).map stored.lookupRecord).getD
    (false, Record.zero)).2
  [("Count", (r.count .report).toNat), ("WL-Count", (r.count .whitelist).toNat)]

/-- The numbers in the reply to an operation that is supported. -/
def operationLines (stored : Database) (req : Packet) :
    Option (List (String × Nat)) :=
  let op := req.get "Op".toList
  if op = "check".toList then
    some (checkLines stored (req.get "Op-Digest".toList))
  else if op = "ping".toList then some []
  else none

/-- The bytes of the reply but for the value of `Thread`. -/
def overhead (stored : Database) (now : Readings) (data : Text)
    (sender : Endpoint) (s : PyzordState) : Nat :=
  replyOverhead (authorizeAdminRequest sender)
    (statisticsLines now { s with
      request_statistics_ := s.request_statistics_.report (now 0) })
    (operationLines stored) data

theorem newNames_operationLines (stored : Database) (req : Packet) :
    ∀ values ∈ operationLines stored req,
      NewNames (values.map Prod.fst) := by
  intro values hvalues
  rw [operationLines] at hvalues
  have hcounts : NewNames ["Count", "WL-Count"] := by decide
  split_ifs at hvalues with hcheck hping
  · rw [← Option.some.inj hvalues]
    exact hcounts
  · rw [← Option.some.inj hvalues]
    decide
  · cases hvalues

theorem operation_eq_lines (stored : Database) (now : Readings) (req : Packet)
    (s : PyzordState) :
    (operation stored now req s (okReply req)).map
        (fun answer => answer.2.1) =
      (operationLines stored req).map (okReply req).setStatistics := by
  rw [operation, operationLines]
  split_ifs <;> rfl

theorem reply_echoes (stored : Database) (now : Readings) (data : Text)
    (sender : Endpoint) (s : PyzordState) :
    (reply stored now data sender s).res.Echoes (echoedThread data)
      (overhead stored now data sender s) := by
  apply answerRequest_echoes (newNames_statisticsLines now _)
  · exact fun res => rfl
  · exact newNames_operationLines stored
  · exact fun req => operation_eq_lines stored now req _

end PyzordState

/-- The replies of both daemons are sent whole exactly when the value of
`Thread` has no NUL in it and fits between the other lines. -/
theorem reply_sentWhole_iff (data : Text) (stored : Database) (now : Readings)
    (sender : Endpoint) (server : ServerState) (pyzord : PyzordState) :
    ((ServerState.reply stored now data sender server).res.SentWhole UdpServer.maxLength ↔
      (∀ c ∈ echoedThread data, c ≠ '\x00') ∧
        server.overhead stored now data sender +
          (echoedThread data).length ≤ UdpServer.maxLength) ∧
    ((PyzordState.reply stored now data sender pyzord).res.SentWhole UdpServer.maxLength ↔
      (∀ c ∈ echoedThread data, c ≠ '\x00') ∧
        pyzord.overhead stored now data sender +
          (echoedThread data).length ≤ UdpServer.maxLength) := by
  have hread := echoedThread_readValue data
  exact ⟨(server.reply_echoes stored now data sender).sentWhole_iff hread _,
    (pyzord.reply_echoes stored now data sender).sentWhole_iff hread _⟩

/-- A request that holds nothing but a value of `n` bytes for `Thread`. -/
def onlyThread (n : Nat) : Packet :=
  ⟨[("Thread".toList, List.replicate n 'a')], List.pairwise_singleton _ _⟩

theorem onlyThread_wellFormed (n : Nat) : (onlyThread n).WellFormed := by
  intro entry hentry
  rw [List.mem_singleton.mp hentry]
  apply plain_of_solidName (by decide)
  · constructor
    · intro c hc
      rw [List.eq_of_mem_replicate hc]
      decide
    · intro c hc
      rw [List.eq_of_mem_replicate (List.mem_of_mem_head? hc)]
      decide
  · intro c hc
    rw [List.eq_of_mem_replicate hc]
    decide

theorem onlyThread_length (n : Nat) : (onlyThread n).text.length = n + 9 := by
  have hname : "Thread".toList.length = 6 := by decide
  rw [text_length, onlyThread, List.map_singleton, List.sum_singleton,
    lineLength, List.length_replicate, hname]
  omega

theorem parse_onlyThread (n : Nat) :
    Packet.parse (onlyThread n).text = (onlyThread n, false) := by
  have hread := parse_text (onlyThread_wellFormed n)
  have hversion : (onlyThread n).has "PV".toList = false := rfl
  rw [parse_fst] at hread
  rw [Packet.parse]
  simp only [hread, hversion, Bool.not_false, Bool.true_or, ↓reduceIte]

/-- The reply to a request that is all `Thread` is longer than the buffer. -/
theorem reply_not_always_sentWhole :
    ¬ ∀ (data : Text) (stored : Database) (now : Readings) (sender : Endpoint)
      (server : ServerState), 1 ≤ data.length → data.length ≤ 8192 →
        (ServerState.reply stored now data sender server).res.SentWhole
          UdpServer.maxLength := by
  intro h
  have hlength := onlyThread_length 8183
  let ring := StatisticsRing.create 300 0
  have hsent := h (onlyThread 8183).text ∅ (fun _ => 0) ⟨[], 0⟩
    ⟨ring, ring, ring, ring, ring, []⟩ (by omega) (by omega)
  have hechoes := ServerState.reply_echoes ∅ (fun _ => 0)
    (onlyThread 8183).text ⟨[], 0⟩ ⟨ring, ring, ring, ring, ring, []⟩
  have hthread : (echoedThread (onlyThread 8183).text).length = 8183 := by
    rw [echoedThread, parse_onlyThread]
    exact List.length_replicate
  have hoverhead : ServerState.overhead ∅ (fun _ => 0)
      (onlyThread 8183).text ⟨[], 0⟩ ⟨ring, ring, ring, ring, ring, []⟩ = 45 := by
    rw [ServerState.overhead, replyOverhead, parse_onlyThread]
    rfl
  have hlong := hechoes.length
  rw [hthread, hoverhead] at hlong
  have hfits : _ ≤ 8192 := hsent.1
  rw [Packet.archive, hlong] at hfits
  omega

end BohunoPyzord

/-
The digest of a request as the key of a record.  What is written for a client
goes through the constructor of `hash`, what is read through
`decode_signature`; on 40 hexadecimal digits of either case both give the
hash that is printed as these digits in lower case.
-/
import BohunoPyzord.UdpServer

namespace BohunoPyzord

open Packet

/-- The digits that `isxdigit` accepts. -/
def hexDigits : List Char := "0123456789abcdefABCDEF".toList

theorem mem_hexDigits {c : Char} (h : isXDigit c = true) : c ∈ hexDigits := by
  have hsmall : c.toNat < 128 := by
    apply Nat.lt_of_not_le
    intro hlarge
    have hnone : hexValue? c = none := by
      have hbound : ∀ d : Char, d.toNat < 128 → ¬ c ≤ d := by
        intro d hd hle
        have hnat : c.toNat ≤ d.toNat := hle
        omega
      rw [hexValue?, if_neg fun h => hbound _ (by decide) h.2,
        if_neg fun h => hbound _ (by decide) h.2,
        if_neg fun h => hbound _ (by decide) h.2]
    rw [isXDigit, hnone] at h
    exact Bool.false_ne_true h
  have hall : ∀ n : Fin 128, isXDigit (Char.ofNat n) = true →
      Char.ofNat n ∈ hexDigits := by decide +kernel
  have hmem := hall ⟨c.toNat, hsmall⟩
  simp only [Char.ofNat_toNat] at hmem
  exact hmem h

/-- A byte that was read from two digits is printed as these in lower case. -/
theorem hexDigit_hexByte : ∀ c ∈ hexDigits, ∀ d ∈ hexDigits,
    [hexDigit ((hexByte c d).toNat / 16), hexDigit ((hexByte c d).toNat % 16)] =
      [c.toLower, d.toLower] := by
  decide +kernel

/-- The same of a text that is read byte by byte. -/
theorem flatMap_hexByte (n : Nat) (s : Text) (hlength : s.length = n * 2)
    (hdigits : ∀ c ∈ s, isXDigit c = true) :
    ((List.ofFn fun i : Fin n => hexByte (s.getD (i * 2) '\x00')
        (s.getD (i * 2 + 1) '\x00')).flatMap fun b =>
      [hexDigit (b.toNat / 16), hexDigit (b.toNat % 16)]) =
        s.map Char.toLower := by
  induction n generalizing s with
  | zero =>
      rw [Nat.zero_mul, List.length_eq_zero_iff] at hlength
      simp [hlength]
  | succ n ih =>
      rcases s with _ | ⟨c, _ | ⟨d, s⟩⟩
      · simp at hlength
      · simp at hlength
        omega
      · have hrest := ih s (by simp only [List.length_cons] at hlength; omega)
          fun e he => hdigits e (by simp [he])
        have hfirst := hexDigit_hexByte c (mem_hexDigits (hdigits c (by simp)))
          d (mem_hexDigits (hdigits d (by simp)))
        rw [List.ofFn_succ, List.flatMap_cons, List.map_cons, List.map_cons]
        simp only [Fin.val_succ, Nat.succ_mul, Fin.val_zero, Nat.zero_mul]
        rw [← hrest]
        exact congrArg (· ++ _) hfirst

/-- 40 hexadecimal digits. -/
def IsDigest (s : Text) : Prop :=
  s.length = 40 ∧ ∀ c ∈ s, isXDigit c = true

instance (s : Text) : Decidable (IsDigest s) :=
  inferInstanceAs (Decidable (_ ∧ _))

/-- The constructor of `hash` and `decode_signature` read the same. -/
theorem ofHex_eq_decodeSignature (s : Text) :
    Hash.ofHex s = decodeSignature s := by
  rw [Hash.ofHex, decodeSignature]
  by_cases hlength : s.length = 40
  · rw [if_pos hlength, if_neg fun h => h hlength]
  · rw [if_neg hlength, if_pos hlength]

/-- A digest is printed back in lower case. -/
theorem IsDigest.decode {s : Text} (h : IsDigest s) :
    ∃ key, decodeSignature s = some key ∧ key.hex = s.map Char.toLower := by
  refine ⟨_, if_neg fun hne => hne h.1, ?_⟩
  have hprinted := flatMap_hexByte 20 s h.1 h.2
  rw [← hprinted, Hash.hex, Vector.toList_ofFn]

/-- Digests decode to one hash exactly when they differ in case only. -/
theorem IsDigest.decode_eq_iff {s t : Text} (hs : IsDigest s)
    (ht : IsDigest t) :
    decodeSignature s = decodeSignature t ↔
      s.map Char.toLower = t.map Char.toLower := by
  obtain ⟨key, hkey, hprinted⟩ := hs.decode
  obtain ⟨key', hkey', hprinted'⟩ := ht.decode
  rw [hkey, hkey', ← hprinted, ← hprinted']
  constructor
  · intro heq
    rw [Option.some.inj heq]
  · intro heq
    rw [← decodeSignature_hex key, ← decodeSignature_hex key', heq]

/-- `Op-Digest` of a request. -/
def requestDigest (data : Text) : Text :=
  (Packet.parse data).1.get "Op-Digest".toList

/-- A request that is accepted for a check, a report or a whitelisting. -/
def RecordRequest (data : Text) : Prop :=
  (Packet.parse data).2 = true ∧
    needsDigest ((Packet.parse data).1.get "Op".toList) = true

instance (data : Text) : Decidable (RecordRequest data) :=
  inferInstanceAs (Decidable (_ ∧ _))

theorem RecordRequest.isDigest {data : Text} (h : RecordRequest data) :
    IsDigest (requestDigest data) := by
  obtain ⟨haccepted, hneeds⟩ := h
  rw [requestDigest]
  rw [Packet.parse] at haccepted hneeds ⊢
  simp only at haccepted hneeds ⊢
  split_ifs at haccepted hneeds ⊢ with hhas hneeded hdigest
  · simp only [Bool.and_eq_true, decide_eq_true_eq, List.all_eq_true]
      at haccepted
    exact haccepted
  · exact absurd hneeds hneeded

/-- The update that a request makes has the key of its digest. -/
theorem ghash_of_mem_update {s : Text} {type : UpdateType} {now : Nat}
    {u : Update} (h : u ∈ ServerState.update s type now) :
    decodeSignature s = some u.ghash := by
  rw [ServerState.update, List.mem_map] at h
  obtain ⟨key, hkey, rfl⟩ := h
  rw [← ofHex_eq_decodeSignature]
  exact Option.mem_toList.mp hkey

theorem ghash_of_mem_updates {stored : Database} {now : Readings} {data : Text}
    {sender : Endpoint} {s : ServerState} {u : Update}
    (h : u ∈ (ServerState.reply stored now data sender s).updates) :
    decodeSignature (requestDigest data) = some u.ghash := by
  rw [ServerState.reply, answerRequest] at h
  rw [requestDigest]
  generalize Packet.parse data = parsed at h ⊢
  obtain ⟨req, ok⟩ := parsed
  simp only [ServerState.operation, ServerState.whitelistEnabled,
    Bool.false_eq_true, ↓reduceIte] at h
  split_ifs at h with hbad hversion hadmin hdenied hshutdown hcheck hreport
    hwhitelist hping
  all_goals first
    | exact absurd h List.not_mem_nil
    | exact ghash_of_mem_update h

/-- A record that is stored is what is looked up under its own hash only. -/
theorem get_insert {digest : Text} {key : Hash}
    (hkey : decodeSignature digest = some key) (db : Database) (hash : Hash)
    (r : Record) :
    Database.get (db.insert hash r) digest =
      if key = hash then
        (decide (r.count .report ≠ 0 ∨ r.count .whitelist ≠ 0), r)
      else db.get digest := by
  rw [Database.get, Database.get, hkey]
  simp only
  by_cases heq : key = hash
  · subst heq
    rw [AList.lookup_insert, if_pos rfl]
    by_cases hreset : r.count .report = 0 ∧ r.count .whitelist = 0
    · simp [hreset]
    · simp only [← not_and_or, hreset, ↓reduceIte, not_false_eq_true,
        decide_true]
  · rw [AList.lookup_insert_ne heq, if_neg heq]

/-- Requests for a record name it by 40 hexadecimal digits, which both
decoders read alike and which are printed back in lower case; what one of them
updates is what another looks up exactly when their digests differ in case
only, whatever is stored. -/
theorem recordRequest_key (data data' : Text) (h : RecordRequest data)
    (h' : RecordRequest data') :
    ((requestDigest data).length = 40 ∧
      ∀ c ∈ requestDigest data, isXDigit c = true) ∧
    (∃ key, Hash.ofHex (requestDigest data) = some key ∧
      decodeSignature (requestDigest data) = some key ∧
      key.hex = (requestDigest data).map Char.toLower ∧
      ∀ type now, ServerState.update (requestDigest data) type now =
        [Update.make key type (BitVec.ofNat 32 now)]) ∧
    ∀ u, ((∃ stored now sender s,
          u ∈ (ServerState.reply stored now data sender s).updates) ∨
        ∃ type now, u ∈ ServerState.update (requestDigest data) type now) →
      ((decodeSignature (requestDigest data') = some u.ghash ↔
        (requestDigest data').map Char.toLower =
          (requestDigest data).map Char.toLower) ∧
      (Hash.ofHex (requestDigest data') = some u.ghash ↔
        (requestDigest data').map Char.toLower =
          (requestDigest data).map Char.toLower) ∧
      ∀ (db : Database) (r : Record),
        Database.get (db.insert u.ghash r) (requestDigest data') =
          if (requestDigest data').map Char.toLower =
              (requestDigest data).map Char.toLower then
            (decide (r.count .report ≠ 0 ∨ r.count .whitelist ≠ 0), r)
          else db.get (requestDigest data')) := by
  have hdigest := h.isDigest
  refine ⟨hdigest, ?_, ?_⟩
  · obtain ⟨key, hkey, hprinted⟩ := hdigest.decode
    have hconstructed := (ofHex_eq_decodeSignature _).trans hkey
    refine ⟨key, hconstructed, hkey, hprinted, ?_⟩
    intro type now
    rw [ServerState.update, hconstructed]
    rfl
  · intro u hu
    have hghash : decodeSignature (requestDigest data) = some u.ghash := by
      rcases hu with ⟨stored, now, sender, s, hreply⟩ | ⟨type, now, hupdate⟩
      · exact ghash_of_mem_updates hreply
      · exact ghash_of_mem_update hupdate
    have hiff := h'.isDigest.decode_eq_iff hdigest
    rw [hghash] at hiff
    rw [ofHex_eq_decodeSignature]
    refine ⟨hiff, hiff, ?_⟩
    intro db r
    obtain ⟨key, hkey, -⟩ := h'.isDigest.decode
    rw [get_insert hkey]
    refine if_congr ?_ rfl rfl
    rw [← hiff, hkey, Option.some.injEq]

/-- A report in upper case and a check in lower case. -/
theorem recordRequest_key_cases :
    let report := ("PV: 2.0\nOp: report\nTime: 1\nThread: 1\n" ++
      "Op-Digest: 00112233445566778899AABBCCDDEEFF00112233\n").toList
    let check := ("PV: 2.0\nOp: check\nTime: 2\nThread: 2\n" ++
      "Op-Digest: 00112233445566778899aabbccddeeff00112233\n").toList
    (RecordRequest report ∧ RecordRequest check) ∧
      ∀ u ∈ ServerState.update (requestDigest report) .report 1,
        decodeSignature (requestDigest check) = some u.ghash := by
  intro report check
  have hreport : RecordRequest report := by decide +kernel
  have hcheck : RecordRequest check := by decide +kernel
  have hlower : (requestDigest check).map Char.toLower =
      (requestDigest report).map Char.toLower := by decide +kernel
  apply And.intro ⟨hreport, hcheck⟩
  intro u hu
  obtain ⟨-, -, hkeys⟩ := recordRequest_key report check hreport hcheck
  exact (hkeys u (Or.inr ⟨_, _, hu⟩)).1.mpr hlower

end BohunoPyzord

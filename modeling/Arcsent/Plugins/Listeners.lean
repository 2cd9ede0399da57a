/-
# The sockets that listen

`internal/plugins/system/network_listeners.go`: the tables of the kernel are texts with a line
of titles and a line for each socket, whose words stand in columns.  The fourth word is the
state of the socket, a number in two hexadecimal digits.
-/
import Arcsent.Go.Strings
import Arcsent.Go.Url
import Arcsent.Plugins.Init

namespace Arcsent.Plugins

open Arcsent.Go Arcsent.Go.Strings Arcsent.Scanner

/-- The body of the loop of `countListeners`. -/
def listenerRound (count : ℕ) (line : Bytes) : ℕ :=
  match fields line with
  | _ :: _ :: _ :: state :: _ =>
    if state = bytes "0A" ∨ state = bytes "07" then count + 1 else count
  | _ => count

/-- The function `countListeners`. -/
def countListeners (data : Bytes) : ℕ := ((data.splitOn newline).drop 1).foldl listenerRound 0

/-- The method `Run` of `NetworkListeners`. -/
def runNetworkListeners (tcpPath udpPath timestamp : String) (tcp udp : Except String Bytes) :
    Except String Result :=
  match tcp with
  | .error err => .error ("read tcp: " ++ err)
  | .ok tcp =>
    match udp with
    | .error err => .error ("read udp: " ++ err)
    | .ok udp =>
      .ok {
        scannerName := (Plugin.networkListeners tcpPath udpPath).name
        status := .success
        findings := []
        startedAt := 0
        finishedAt := 0
        duration := 0
        metadata :=
          ⟨[("timestamp", .string timestamp), ("tcp_count", .int (countListeners tcp)),
            ("udp_count", .int (countListeners udp))], by simp⟩ }

/-! ## Words in columns -/

/-- A byte that is no white space, and of no character that is. -/
def IsPlain (b : UInt8) : Prop := 0x21 ≤ b ∧ b ≤ 0x7E

instance (b : UInt8) : Decidable (IsPlain b) := inferInstanceAs (Decidable (_ ∧ _))

/-- A word of a table. -/
def IsWord (word : Bytes) : Prop := word ≠ [] ∧ ∀ b ∈ word, IsPlain b

instance (word : Bytes) : Decidable (IsWord word) := inferInstanceAs (Decidable (_ ∧ _))

section Fields

variable {b : UInt8} {word field rest : Bytes} {n : ℕ}

lemma find?_space (rest : Bytes) :
    spaces.find? (·.isPrefixOf (0x20 :: rest)) = some [0x20] := by
  simp [spaces, List.find?, List.isPrefixOf]

lemma find?_plain (h : IsPlain b) (rest : Bytes) :
    spaces.find? (·.isPrefixOf (b :: rest)) = none := by
  have hheads : ∀ space ∈ spaces, ∃ c tail, space = c :: tail ∧ ¬ IsPlain c := by
    have hall : ∀ space ∈ spaces, space ≠ [] ∧ ∀ c ∈ space.head?, ¬ IsPlain c := by
      decide +kernel
    intro space hspace
    obtain ⟨hne, hhead⟩ := hall space hspace
    cases space with
    | nil => exact absurd rfl hne
    | cons c tail => exact ⟨c, tail, rfl, hhead c rfl⟩
  rw [List.find?_eq_none]
  intro space hspace hstarts
  obtain ⟨c, tail, rfl, hc⟩ := hheads space hspace
  obtain ⟨rfl, -⟩ := List.cons_prefix_cons.mp (List.isPrefixOf_iff_prefix.mp hstarts)
  exact hc h

/-- The loop takes a word over. -/
lemma fieldsLoop_word (hword : ∀ b ∈ word, IsPlain b) (n : ℕ) (field rest : Bytes) :
    fieldsLoop (n + word.length) field (word ++ rest) = fieldsLoop n (field ++ word) rest := by
  induction word generalizing field with
  | nil => simp
  | cons b word ih =>
    obtain ⟨hb, hword⟩ := List.forall_mem_cons.mp hword
    rw [List.length_cons, ← Nat.add_assoc, List.cons_append, fieldsLoop, find?_plain hb]
    dsimp only
    rw [ih hword, List.append_assoc, List.singleton_append]

/-- It ends a field at a row of spaces, if one has been begun. -/
lemma fieldsLoop_spaces (k n : ℕ) (field rest : Bytes) :
    fieldsLoop (n + (k + 1)) field (List.replicate (k + 1) 0x20 ++ rest) =
      (if field = [] then [] else [field]) ++ fieldsLoop n [] rest := by
  induction k generalizing field with
  | zero =>
    rw [List.replicate_succ, List.replicate_zero, List.singleton_append, fieldsLoop, find?_space]
    rfl
  | succ k ih =>
    rw [List.replicate_succ, List.cons_append, ← Nat.add_assoc, fieldsLoop, find?_space]
    dsimp only
    rw [List.length_singleton, List.drop_one, List.tail_cons, ih]
    simp

end Fields

/-- A line of a table: its words, each with the number of spaces in front of it but one, and
the spaces at the end. -/
structure Line where
  lead : ℕ
  first : Bytes
  others : List (ℕ × Bytes)
  trail : ℕ
  first_word : IsWord first
  other_words : ∀ e ∈ others, IsWord e.2

namespace Line

def words (l : Line) : List Bytes := l.first :: l.others.map Prod.snd

/-- The line as it is written. -/
def render (l : Line) : Bytes :=
  List.replicate l.lead 0x20 ++ l.first ++
    l.others.flatMap (fun e => List.replicate (e.1 + 1) 0x20 ++ e.2) ++
    List.replicate l.trail 0x20

/-- The part of a line behind a word, with the words that come before the last one, and the
last one still to be ended. -/
lemma fieldsLoop_others {others : List (ℕ × Bytes)} (h : ∀ e ∈ others, IsWord e.2) (n : ℕ)
    {field : Bytes} (hfield : field ≠ []) (rest : Bytes) :
    let gaps := others.flatMap fun e => List.replicate (e.1 + 1) 0x20 ++ e.2
    ∃ init last, field :: others.map Prod.snd = init ++ [last] ∧ last ≠ [] ∧
      fieldsLoop (n + gaps.length) field (gaps ++ rest) = init ++ fieldsLoop n last rest := by
  induction others generalizing field with
  | nil => exact ⟨[], field, rfl, hfield, rfl⟩
  | cons e others ih =>
    obtain ⟨hword, hothers⟩ := List.forall_mem_cons.mp h
    obtain ⟨init, last, hwords, hlast, hloop⟩ := ih hothers hword.1
    dsimp only at hloop ⊢
    refine ⟨field :: init, last, by rw [List.map_cons, hwords, List.cons_append], hlast, ?_⟩
    rw [List.flatMap_cons, List.length_append, List.length_append, List.length_replicate,
      List.append_assoc, List.append_assoc]
    generalize others.flatMap (fun e => List.replicate (e.1 + 1) 0x20 ++ e.2) = gaps at hloop
    have hfuel : n + (e.1 + 1 + e.2.length + gaps.length) =
        n + gaps.length + e.2.length + (e.1 + 1) := by omega
    rw [hfuel, fieldsLoop_spaces, if_neg hfield, fieldsLoop_word hword.2, List.nil_append, hloop]
    rfl

lemma fieldsLoop_lead (k n : ℕ) (rest : Bytes) :
    fieldsLoop (n + k) [] (List.replicate k 0x20 ++ rest) = fieldsLoop n [] rest := by
  cases k with
  | zero => rfl
  | succ k => simpa using fieldsLoop_spaces k n [] rest

lemma fieldsLoop_trail (k : ℕ) {field : Bytes} (h : field ≠ []) :
    fieldsLoop k field (List.replicate k 0x20) = [field] := by
  cases k with
  | zero => exact if_neg h
  | succ k =>
    have hloop := fieldsLoop_spaces k 0 field []
    rw [List.append_nil, Nat.zero_add, if_neg h] at hloop
    rw [hloop]
    rfl

/-- **The words of a line are read back.** -/
lemma fields_render (l : Line) : fields l.render = l.words := by
  obtain ⟨init, last, hwords, hlast, hloop⟩ := fieldsLoop_others l.other_words l.trail
    l.first_word.1 (List.replicate l.trail 0x20)
  rw [fields, render, words]
  generalize l.others.flatMap (fun e => List.replicate (e.1 + 1) 0x20 ++ e.2) = gaps at hloop
  have hfuel : (List.replicate l.lead 0x20 ++ l.first ++ gaps ++
      List.replicate l.trail (0x20 : UInt8)).length =
        l.trail + gaps.length + l.first.length + l.lead := by
    simp only [List.length_append, List.length_replicate]
    omega
  rw [hfuel, List.append_assoc, List.append_assoc, fieldsLoop_lead,
    fieldsLoop_word l.first_word.2, List.nil_append, hloop, fieldsLoop_trail _ hlast, hwords]

lemma newline_notMem_render (l : Line) : newline ∉ l.render := by
  have hword : ∀ {word}, IsWord word → newline ∉ word := fun h hmem =>
    absurd (h.2 _ hmem) (by decide)
  have hspaces : ∀ k, newline ∉ List.replicate k (0x20 : UInt8) := fun k hmem =>
    absurd (List.eq_of_mem_replicate hmem) (by decide)
  rw [render]
  simp only [List.mem_append, List.mem_flatMap, not_or, not_exists, not_and]
  exact ⟨⟨⟨hspaces _, hword l.first_word⟩, fun e he => ⟨hspaces _, hword (l.other_words e he)⟩⟩,
    hspaces _⟩

end Line

/-! ## Tables of sockets -/

/-- A number in two hexadecimal digits. -/
def hexByte (n : UInt8) : Bytes := [Url.upperHex (n.toNat / 16), Url.upperHex (n.toNat % 16)]

/-- A line of a table, with the state of its socket. -/
structure Socket extends Line where
  state : UInt8
  state_word : toLine.words[3]? = some (hexByte state)

/-- A table of the kernel. -/
structure Table where
  titles : Bytes
  sockets : List Socket
  titles_line : newline ∉ titles

namespace Table

/-- The table as it is written. -/
def render (t : Table) : Bytes :=
  t.titles ++ newline :: t.sockets.flatMap fun s => s.render ++ [newline]

lemma splitOn_render (t : Table) :
    t.render.splitOn newline = t.titles :: (t.sockets.map fun s => s.render) ++ [[]] := by
  have hlines : ∀ sockets : List Socket,
      (sockets.flatMap fun s => s.render ++ [newline]).splitOn newline =
        (sockets.map fun s => s.render) ++ [[]] := by
    intro sockets
    induction sockets with
    | nil => rfl
    | cons s sockets ih =>
      rw [List.flatMap_cons, List.append_assoc, List.singleton_append,
        List.splitOn_append_cons_self_of_not_mem s.newline_notMem_render, ih]
      rfl
  rw [render, List.splitOn_append_cons_self_of_not_mem t.titles_line, hlines]
  rfl

end Table

/-- The states that are counted: 10 is `LISTEN` for TCP, and 7 stands for a UDP socket without
a peer and for a TCP socket that is closed. -/
def Counted (s : Socket) : Prop := s.state = 0x0A ∨ s.state = 0x07

instance (s : Socket) : Decidable (Counted s) := inferInstanceAs (Decidable (_ ∨ _))

/-- Two digits tell the state. -/
lemma hexByte_iff (n : UInt8) :
    (hexByte n = bytes "0A" ∨ hexByte n = bytes "07") ↔ n = 0x0A ∨ n = 0x07 := by
  have hall : ∀ k < 256, (hexByte (UInt8.ofNat k) = bytes "0A" ∨
      hexByte (UInt8.ofNat k) = bytes "07") ↔ UInt8.ofNat k = 0x0A ∨ UInt8.ofNat k = 0x07 := by
    decide +kernel
  have hn := hall n.toNat n.toNat_lt
  rwa [UInt8.ofNat_toNat] at hn

/-- A round of the loop, on the line of a socket. -/
lemma listenerRound_render (count : ℕ) (s : Socket) :
    listenerRound count s.render = if Counted s then count + 1 else count := by
  obtain ⟨a, b, c, rest, hwords⟩ : ∃ a b c rest,
      s.words = a :: b :: c :: hexByte s.state :: rest := by
    have hfourth := s.state_word
    rcases hsplit : s.words with _ | ⟨a, _ | ⟨b, _ | ⟨c, _ | ⟨d, rest⟩⟩⟩⟩
    all_goals rw [hsplit] at hfourth
    · cases hfourth
    · cases hfourth
    · cases hfourth
    · cases hfourth
    · obtain rfl : d = hexByte s.state := Option.some.inj hfourth
      exact ⟨a, b, c, rest, rfl⟩
  rw [listenerRound, Line.fields_render, hwords]
  exact if_congr (hexByte_iff s.state) rfl rfl

lemma foldl_listenerRound (sockets : List Socket) (count : ℕ) :
    (sockets.map fun s => s.render).foldl listenerRound count =
      count + sockets.countP fun s => Counted s := by
  induction sockets generalizing count with
  | nil => rfl
  | cons s sockets ih =>
    rw [List.map_cons, List.foldl_cons, listenerRound_render, ih, List.countP_cons]
    by_cases h : Counted s
    · rw [if_pos h, if_pos (decide_eq_true h)]
      omega
    · rw [if_neg h, if_neg (by simpa using h), Nat.add_zero]

/-- The sockets in one of the two states are counted. -/
lemma countListeners_render (t : Table) :
    countListeners t.render = t.sockets.countP fun s => Counted s := by
  have hlast : ∀ count, listenerRound count [] = count := fun count => rfl
  rw [countListeners, t.splitOn_render, List.cons_append, List.drop_one, List.tail_cons,
    List.foldl_append, foldl_listenerRound, Nat.zero_add]
  exact hlast _

/-- **What a run says of the tables of the kernel**, however their columns are set: the TCP
sockets that listen together with those that are closed, and the UDP sockets without a peer
together with any in the state 10.  Nothing is reported about them. -/
theorem listeners_counted (tcp udp : Table) (tcpPath udpPath timestamp : String) :
    ∃ r, runNetworkListeners tcpPath udpPath timestamp (.ok tcp.render) (.ok udp.render) = .ok r ∧
      r.findings = [] ∧
      r.metadata.get? "tcp_count" = some (.int (tcp.sockets.countP fun s => Counted s)) ∧
      r.metadata.get? "udp_count" = some (.int (udp.sockets.countP fun s => Counted s)) := by
  rw [runNetworkListeners, countListeners_render, countListeners_render]
  exact ⟨_, rfl, rfl, rfl, rfl⟩

/-- The words in front of the state of a socket, and the state. -/
def socketLine (trail : ℕ) (state : Bytes) (h : IsWord state) : Line where
  lead := 3
  first := bytes "0:"
  others := [(0, bytes "0100007F:0CEA"), (0, bytes "00000000:0000"), (0, state)]
  trail := trail
  first_word := by decide +kernel
  other_words := by
    intro e he
    simp only [List.mem_cons, List.not_mem_nil, or_false] at he
    rcases he with rfl | rfl | rfl
    · exact ⟨by decide, by decide +kernel⟩
    · exact ⟨by decide, by decide +kernel⟩
    · exact h

def listening : Socket :=
  { socketLine 0 (bytes "0A") (by decide +kernel) with state := 0x0A, state_word := rfl }

def established : Socket :=
  { socketLine 2 (bytes "01") (by decide +kernel) with state := 0x01, state_word := rfl }

/-- A table of given sockets. -/
def tableOf (sockets : List Socket) : Table :=
  ⟨bytes "  sl  local_address rem_address   st", sockets, by decide +kernel⟩

/-- One of two sockets is counted. -/
theorem listeners_counted_two : ∃ r,
    runNetworkListeners "/proc/net/tcp" "/proc/net/udp" ""
        (.ok (tableOf [listening, established]).render) (.ok (tableOf []).render) = .ok r ∧
      r.metadata.get? "tcp_count" = some (.int 1) ∧
      r.metadata.get? "udp_count" = some (.int 0) := by
  obtain ⟨r, hrun, -, htcp, hudp⟩ := listeners_counted (tableOf [listening, established])
    (tableOf []) "/proc/net/tcp" "/proc/net/udp" ""
  have hcount : (tableOf [listening, established]).sockets.countP (fun s => Counted s) = 1 := by
    decide +kernel
  rw [hcount] at htcp
  exact ⟨r, hrun, htcp, hudp⟩

end Arcsent.Plugins

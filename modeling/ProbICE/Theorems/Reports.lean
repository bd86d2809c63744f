import Mathlib.Data.List.Nodup
import ProbICE.Lib.Labelled
import ProbICE.Report
import ProbICE.Theorems.Snapshots

/-! # What a report shows

An entry of a report has eleven labels. A reader finds a value behind each of them, whatever the candidates are, since
these come last in an entry. One of the values belongs to another label. -/

namespace ProbICE.IceProber

section
variable [Host]

/-- The labels in the first line of an entry, with the field that each of them names. -/
def flags : List (CString × (ConnectionInfo → Nat)) :=
  [(cstr "best:", fun info => info.best_connection.toNat),
    (cstr "writable:", fun info => info.writable.toNat),
    (cstr "readabel:", fun info => info.readable.toNat),
    (cstr "timeout:", fun info => info.timeout.toNat),
    (cstr "new_connection:", fun info => info.new_connection.toNat),
    (cstr "pruned:", fun info => info.pruned.toNat)]

/-- The labels in the second line. -/
def figures : List (CString × (ConnectionInfo → Nat)) :=
  [(cstr "last_ping_sent:", ConnectionInfo.last_ping_sent),
    (cstr "last_ping_recvied:", ConnectionInfo.last_ping_received),
    (cstr "rtt:", ConnectionInfo.rtt),
    (cstr "sent:", ConnectionInfo.sent_total_bytes),
    (cstr "recv:", ConnectionInfo.recv_total_bytes)]

def labels : List (CString × (ConnectionInfo → Nat)) := flags ++ figures

/-- The labels without their fields. -/
def names : List CString :=
  [cstr "best:", cstr "writable:", cstr "readabel:", cstr "timeout:", cstr "new_connection:", cstr "pruned:",
    cstr "last_ping_sent:", cstr "last_ping_recvied:", cstr "rtt:", cstr "sent:", cstr "recv:"]

/-- A tab or the end of a line. -/
def isSeparator (b : UInt8) : Bool := b == 0x09 || b == 0x0A

/-- What stands behind a label in an entry. -/
def shown (label text : CString) : Option CString := Labelled.lookup isSeparator label text

/-- What the second line has behind its labels. -/
def writtenFigures : List (CString × (ConnectionInfo → Nat)) :=
  figures.set 1 (cstr "last_ping_recvied:", ConnectionInfo.last_ping_sent)

/-- What an entry has behind its labels. -/
def written : List (CString × (ConnectionInfo → Nat)) := flags ++ writtenFigures

def cell (info : ConnectionInfo) (l : CString × (ConnectionInfo → Nat)) : CString := l.1 ++ Decimal.print (l.2 info)

/-- The cells of the two lines. The second one begins with two empty cells. -/
def cells (i : Nat) (info : ConnectionInfo) : List CString :=
  (Decimal.print i ++ cstr ".") :: flags.map (cell info) ++ [] :: [] :: writtenFigures.map (cell info)

def separators : List UInt8 := [9, 9, 9, 9, 9, 9, 10, 9, 9, 9, 9, 9, 9, 10]

/-- The two lines of an entry that name the candidates. -/
def candidateLines (info : ConnectionInfo) : CString :=
  tab ++ cstr "Local:" ++ info.local_candidate.ToString ++ endl ++ tab ++ cstr "Remote:" ++ info.remote_candidate.ToString ++ endl

omit [Host] in
theorem showBool_eq (b : Bool) : showBool b = Decimal.print b.toNat := by cases b <;> rfl

theorem entry_eq (i : Nat) (info : ConnectionInfo) :
    entry i info = Labelled.write ((cells i info).zip separators) ++ candidateLines info := by
  simp [entry, candidateLines, cells, cell, flags, writtenFigures, figures, separators, Labelled.write, showBool_eq, tab, endl]

/-! ### Reading an entry -/

theorem labels_fst : labels.map Prod.fst = names := rfl

theorem written_fst : written.map Prod.fst = names := rfl

omit [Host] in
theorem isSeparator_of_isDigit {b : UInt8} (h : Decimal.isDigit b = true) : isSeparator b = false := by
  have hblank := Decimal.not_isBlank (.inl h)
  rw [← Bool.not_eq_true] at hblank ⊢
  refine fun hsep => hblank ?_
  rcases Bool.or_eq_true_iff.mp hsep with hb | hb <;> rw [beq_iff_eq.mp hb] <;> rfl

omit [Host] in
theorem isSeparator_of_mem_names {a : CString} (ha : a ∈ names) {b : UInt8} (hb : b ∈ a) : isSeparator b = false := by
  have hall : (names.all fun a => a.all fun b => !isSeparator b) = true := by decide
  exact (Bool.not_eq_true' _).mp (List.all_eq_true.mp (List.all_eq_true.mp hall a ha) b hb)

omit [Host] in
/-- No label is the front of another one. -/
theorem eq_of_prefix_names : ∀ a ∈ names, ∀ a' ∈ names, a <+: a' → a = a' := by decide

omit [Host] in
theorem head_of_mem_names : ∀ a ∈ names, ∃ b ∈ a.head?, Decimal.isDigit b = false := by decide

theorem nodup_labels : (labels.map Prod.fst).Nodup := by
  rw [labels_fst]
  decide

theorem nodup_written : (written.map Prod.fst).Nodup := by
  rw [written_fst]
  decide

theorem mem_cells {i : Nat} {info : ConnectionInfo} {w : CString} :
    w ∈ cells i info ↔ w = Decimal.print i ++ cstr "." ∨ w = [] ∨ ∃ l ∈ written, cell info l = w := by
  simp only [cells, written, List.mem_append, List.mem_cons, List.mem_map]
  grind

theorem isSeparator_of_mem_cells {i : Nat} {info : ConnectionInfo} {w : CString} (hw : w ∈ cells i info) {b : UInt8}
    (hb : b ∈ w) : isSeparator b = false := by
  have hprint : ∀ n, b ∈ Decimal.print n → isSeparator b = false := fun n hb =>
    isSeparator_of_isDigit (Decimal.isDigit_of_mem_print hb)
  rcases mem_cells.mp hw with rfl | rfl | ⟨l, hl, rfl⟩
  · rcases List.mem_append.mp hb with hb | hb
    · exact hprint i hb
    · obtain rfl := List.mem_singleton.mp hb
      rfl
  · cases hb
  · rcases List.mem_append.mp hb with hb | hb
    · exact isSeparator_of_mem_names (written_fst ▸ List.mem_map_of_mem hl) hb
    · exact hprint _ hb

/-- A label stands in front of no cell but its own. -/
theorem eq_of_prefix_cells {i : Nat} {info : ConnectionInfo} {l : CString × (ConnectionInfo → Nat)} (hl : l ∈ written)
    {w : CString} (hw : w ∈ cells i info) (hlabel : l.1 <+: w) : w = cell info l := by
  have hname : l.1 ∈ names := written_fst ▸ List.mem_map_of_mem hl
  obtain ⟨b, hb, hdigit⟩ := head_of_mem_names l.1 hname
  obtain ⟨rest, hrest⟩ := List.head?_eq_some_iff.mp hb
  rw [hrest] at hlabel
  rcases mem_cells.mp hw with rfl | rfl | ⟨l', hl', rfl⟩
  · rcases hprint : Decimal.print i with _ | ⟨c, ds⟩
    · exact absurd hprint (Decimal.print_ne_nil i)
    · have hc : Decimal.isDigit c = true := Decimal.isDigit_of_mem_print (hprint ▸ List.mem_cons_self)
      rw [hprint, List.cons_append, List.cons_prefix_cons] at hlabel
      rw [hlabel.1, hc] at hdigit
      cases hdigit
  · exact absurd (List.prefix_nil.mp hlabel) (List.cons_ne_nil _ _)
  · rw [← hrest] at hlabel
    have hname' : l'.1 ∈ names := written_fst ▸ List.mem_map_of_mem hl'
    have hfst : l'.1 = l.1 := by
      rcases List.prefix_or_prefix_of_prefix hlabel (List.prefix_append l'.1 _) with h | h
      · exact (eq_of_prefix_names _ hname _ hname' h).symm
      · exact eq_of_prefix_names _ hname' _ hname h
    rw [List.inj_on_of_nodup_map nodup_written hl' hl hfst]

/-- What a reader finds behind a label, whatever the candidates are. -/
theorem shown_entry (i : Nat) (info : ConnectionInfo) {l : CString × (ConnectionInfo → Nat)} (hl : l ∈ written) :
    shown l.1 (entry i info) = some (Decimal.print (l.2 info)) := by
  have hfst : ((cells i info).zip separators).map Prod.fst = cells i info := List.map_fst_zip (Nat.le_refl 14)
  have hended : ∀ c ∈ (cells i info).zip separators, Labelled.Ended isSeparator c := by
    rintro ⟨w, sep⟩ hc
    obtain ⟨hw, hsep⟩ := List.of_mem_zip hc
    have hall : separators.all isSeparator = true := by decide
    exact ⟨fun b hb => isSeparator_of_mem_cells hw hb, List.all_eq_true.mp hall sep hsep⟩
  rw [shown, entry_eq]
  refine Labelled.lookup_write hended ?_ ?_ _
  · rw [hfst]
    exact mem_cells.mpr (.inr (.inr ⟨l, hl, rfl⟩))
  · rw [hfst]
    exact fun w hw hlabel => eq_of_prefix_cells hl hw hlabel

theorem cells_congr {i : Nat} {info info' : ConnectionInfo} (h : ∀ l ∈ written, l.2 info = l.2 info') :
    cells i info = cells i info' := by
  have hcell : ∀ l ∈ written, cell info l = cell info' l := fun l hl => by rw [cell, cell, h l hl]
  rw [cells, cells, List.map_congr_left fun l hl => hcell l (List.mem_append_left _ hl),
    List.map_congr_left fun l hl => hcell l (List.mem_append_right _ hl)]

/-! ### The one wrong field -/

/-- The label that comes with the field of its neighbour. -/
def last_ping_recvied : CString := cstr "last_ping_recvied:"

theorem mem_written_iff {l : CString × (ConnectionInfo → Nat)} (hne : l.1 ≠ last_ping_recvied) : l ∈ written ↔ l ∈ labels := by
  have hsent : l ≠ (last_ping_recvied, ConnectionInfo.last_ping_sent) := fun h => hne (congrArg Prod.fst h)
  have hreceived : l ≠ (last_ping_recvied, ConnectionInfo.last_ping_received) := fun h => hne (congrArg Prod.fst h)
  simp only [last_ping_recvied] at hsent hreceived
  simp only [labels, flags, figures, written, writtenFigures, List.mem_append, List.mem_cons, List.not_mem_nil, or_false,
    List.set_cons_succ, List.set_cons_zero, hsent, hreceived, false_or]

theorem sent_mem_written : (last_ping_recvied, ConnectionInfo.last_ping_sent) ∈ written := by
  simp [written, writtenFigures, figures, last_ping_recvied]

theorem received_mem_labels : (last_ping_recvied, ConnectionInfo.last_ping_received) ∈ labels := by
  simp [labels, figures, last_ping_recvied]

/-- All labels of an entry are right if and only if the two times of its record are the same. -/
theorem labelled_iff (i : Nat) (info : ConnectionInfo) :
    (∀ l ∈ labels, shown l.1 (entry i info) = some (Decimal.print (l.2 info))) ↔
      info.last_ping_received = info.last_ping_sent := by
  have hsent := shown_entry i info sent_mem_written
  constructor
  · intro h
    have hreceived := h _ received_mem_labels
    rw [hsent] at hreceived
    exact (Decimal.print_injective (Option.some.inj hreceived)).symm
  · intro h l hl
    by_cases hne : l.1 = last_ping_recvied
    · obtain rfl := List.inj_on_of_nodup_map nodup_labels hl received_mem_labels hne
      dsimp only at hsent ⊢
      rw [h, hsent]
    · exact shown_entry i info ((mem_written_iff hne).mpr hl)

/-- Two records have the same entry if and only if they differ in nothing that a report shows: in no field but the time
    of the last ping received, and not in the texts of their candidates. -/
theorem entry_eq_entry_iff (i : Nat) (info info' : ConnectionInfo) :
    entry i info = entry i info' ↔
      (∀ l ∈ labels, l.1 ≠ last_ping_recvied → l.2 info = l.2 info') ∧ candidateLines info = candidateLines info' := by
  constructor
  · intro h
    have hvalue : ∀ l ∈ written, l.2 info = l.2 info' := by
      intro l hl
      have hshown := shown_entry i info hl
      rw [h, shown_entry i info' hl] at hshown
      exact (Decimal.print_injective (Option.some.inj hshown)).symm
    have hcells : cells i info = cells i info' := cells_congr hvalue
    rw [entry_eq, entry_eq, hcells] at h
    exact ⟨fun l hl hne => hvalue l ((mem_written_iff hne).mpr hl), List.append_cancel_left h⟩
  · rintro ⟨hlabels, hlines⟩
    have hvalue : ∀ l ∈ written, l.2 info = l.2 info' := by
      intro l hl
      by_cases hne : l.1 = last_ping_recvied
      · obtain rfl := List.inj_on_of_nodup_map nodup_written hl sent_mem_written hne
        have hsent : (cstr "last_ping_sent:", ConnectionInfo.last_ping_sent) ∈ labels := by simp [labels, figures]
        have hname : cstr "last_ping_sent:" ≠ last_ping_recvied := by decide
        exact hlabels (cstr "last_ping_sent:", ConnectionInfo.last_ping_sent) hsent hname
      · exact hlabels l ((mem_written_iff hne).mp hl) hne
    rw [entry_eq, entry_eq, cells_congr hvalue, hlines]

/-! ### The report of a list -/

/-- A block is a heading, an entry for each record in the order of the list, and two empty lines. An entry begins with
    its number, and each label in it stands in front of the value of the field that it names. -/
structure Reports (head block : CString) (report : List CString) (infos : List ConnectionInfo) : Prop where
  block_eq : block = head ++ report.flatten ++ endl ++ endl
  length_eq : report.length = infos.length
  entry : ∀ i info, infos[i]? = some info → ∃ text, report[i]? = some text ∧ Decimal.print i ++ cstr "." <+: text ∧
    ∀ l ∈ labels, shown l.1 text = some (Decimal.print (l.2 info))

/-- The loop goes to the end of a list whose length is an `int`. -/
theorem size_eq {infos : List ConnectionInfo} (h : infos.length < 2 ^ 31) : (size infos).toNat = infos.length := by
  have hint : size infos = infos.length := by
    unfold size
    exact Int.bmod_eq_of_le (by omega) (by omega)
  omega

theorem size_lt (infos : List ConnectionInfo) : (size infos).toNat < 2 ^ 31 := by
  have h : size infos < (2 ^ 32 + 1) / 2 := Int.bmod_lt (by decide)
  omega

theorem getElem?_entries {infos : List ConnectionInfo} (h : infos.length < 2 ^ 31) (i : Nat) :
    (entries infos)[i]? = infos[i]?.map (IceProber.entry i) := by
  rw [entries, size_eq h, List.take_length, List.getElem?_mapIdx]

theorem entry_numbered (i : Nat) (info : ConnectionInfo) : Decimal.print i ++ cstr "." <+: entry i info := by
  rw [IceProber.entry, List.flatten_cons, List.flatten_cons, ← List.append_assoc]
  exact List.prefix_append _ _

theorem reports_iff (asctime : CString) (time : UInt32) (targetChannel : TransportChannel) (evt : CString)
    (infos : List ConnectionInfo) :
    Reports (heading asctime time targetChannel evt) (onMonitorCallback asctime time targetChannel evt infos) (entries infos)
        infos ↔
      infos.length < 2 ^ 31 ∧ ∀ info ∈ infos, info.last_ping_received = info.last_ping_sent := by
  constructor
  · intro h
    have hlength : infos.length < 2 ^ 31 := by
      have hsize := size_lt infos
      have hentries := h.length_eq
      rw [entries, List.length_mapIdx, List.length_take] at hentries
      omega
    refine ⟨hlength, fun info hinfo => ?_⟩
    obtain ⟨i, hi⟩ := List.mem_iff_getElem?.mp hinfo
    obtain ⟨text, htext, -, hshown⟩ := h.entry i info hi
    rw [getElem?_entries hlength, hi] at htext
    obtain rfl := Option.some.inj htext
    exact (labelled_iff i info).mp hshown
  · rintro ⟨hlength, hinfos⟩
    refine ⟨rfl, ?_, fun i info hi => ?_⟩
    · rw [entries, List.length_mapIdx, size_eq hlength, List.take_length]
    · have hentry : (entries infos)[i]? = some (entry i info) := by
        rw [getElem?_entries hlength, hi]
        rfl
      exact ⟨_, hentry, entry_numbered i info, (labelled_iff i info).mpr (hinfos info (List.mem_of_getElem? hi))⟩

/-- The report of what a poll has gathered. -/
theorem reports_gather_iff (asctime : CString) (time : UInt32) (targetChannel : TransportChannel) (evt : CString)
    {m : SocketMonitor} {c : P2PTransportChannel} (hc : m.channel = some c) :
    Reports (heading asctime time targetChannel evt) (onMonitorCallback asctime time targetChannel evt m.gather)
        (entries m.gather) m.gather ↔
      c.connections.length < 2 ^ 31 ∧ ∀ x ∈ c.connections, x.last_ping_received = x.last_ping_sent := by
  have hgather : m.gather = c.connections.map c.info := by rw [SocketMonitor.gather, hc]
  rw [reports_iff, hgather, List.length_map, List.forall_mem_map]
  exact and_congr_right fun _ => forall₂_congr fun x _ => UInt32.toNat_inj

/-- Records that differ in the field of some label have different entries. -/
def Distinguishes (infos infos' : List ConnectionInfo) : Prop :=
  ∀ (i : Nat) (info info' : ConnectionInfo), infos[i]? = some info → infos'[i]? = some info' → (∃ l ∈ labels, l.2 info ≠ l.2 info') →
    (entries infos)[i]? ≠ (entries infos')[i]?

theorem distinguishes {infos infos' : List ConnectionInfo} (hlength : infos.length < 2 ^ 31) (hlength' : infos'.length < 2 ^ 31)
    (hinfos : ∀ info ∈ infos, info.last_ping_received = info.last_ping_sent)
    (hinfos' : ∀ info ∈ infos', info.last_ping_received = info.last_ping_sent) : Distinguishes infos infos' := by
  rintro i info info' hi hi' ⟨l, hl, hne⟩ heq
  rw [getElem?_entries hlength, getElem?_entries hlength', hi, hi'] at heq
  have hentry : entry i info = entry i info' := Option.some.inj heq
  have hshown := (labelled_iff i info).mpr (hinfos info (List.mem_of_getElem? hi)) l hl
  rw [hentry, (labelled_iff i info').mpr (hinfos' info' (List.mem_of_getElem? hi')) l hl] at hshown
  exact hne (Decimal.print_injective (Option.some.inj hshown)).symm

/-- Two reports are right, and tell their lists apart, if and only if in every record the last ping was received at the
    time at which the last one was sent. The report has no other field wrong, and a difference in that one never shows. -/
theorem report_intact_iff (asctime : CString) (time : UInt32) (targetChannel : TransportChannel) (evt : CString)
    (infos infos' : List ConnectionInfo) :
    ((Reports (heading asctime time targetChannel evt) (onMonitorCallback asctime time targetChannel evt infos)
          (entries infos) infos ∧
        Reports (heading asctime time targetChannel evt) (onMonitorCallback asctime time targetChannel evt infos')
          (entries infos') infos' ∧
        Distinguishes infos infos') ↔
      (infos.length < 2 ^ 31 ∧ ∀ info ∈ infos, info.last_ping_received = info.last_ping_sent) ∧
        infos'.length < 2 ^ 31 ∧ ∀ info ∈ infos', info.last_ping_received = info.last_ping_sent) ∧
    ∀ i info info', entry i info = entry i info' ↔
      (∀ l ∈ labels, l.1 ≠ last_ping_recvied → l.2 info = l.2 info') ∧ candidateLines info = candidateLines info' := by
  refine ⟨?_, entry_eq_entry_iff⟩
  constructor
  · rintro ⟨h, h', -⟩
    exact ⟨(reports_iff _ _ _ _ _).mp h, (reports_iff _ _ _ _ _).mp h'⟩
  · rintro ⟨h, h'⟩
    exact ⟨(reports_iff _ _ _ _ _).mpr h, (reports_iff _ _ _ _ _).mpr h', distinguishes h.1 h'.1 h.2 h'.2⟩

end

/-! ### Two runs with one report -/

section
attribute [local instance] Host.plain

/-- A channel whose connection was last pinged at the time that is given. -/
def pinged (last_ping_received : UInt32) : P2PTransportChannel where
  connections :=
    [{ key := 0, read_state := .readable, write_state := .writable, reported := false, pruned := false, rtt := 3000
       sent_total_bytes := 0, sent_bytes_second := 0, recv_total_bytes := 0, recv_bytes_second := 0, last_ping_sent := 100
       last_ping_received, local_candidate := SocketMonitor.hostCandidate
       remote_candidate := SocketMonitor.hostCandidate }]
  best_connection := some 0
  constructed := 1
  distinct := by simp
  known := by simp

/-- The monitor is started and hears of the channel. -/
def hearing (last_ping_received : UInt32) : List SocketMonitor.Event :=
  [.post .start, .dispatch, .signal, .work (pinged last_ping_received), .connectionMonitor (cstr "Add connection"), .signal]

/-- What the last update of the monitor hands over. -/
def lastInfos (last_ping_received : UInt32) : List ConnectionInfo :=
  (pinged last_ping_received).connections.map (pinged last_ping_received).info

/-- The time of the last ping received is not in a report. -/
theorem ping_received_lost :
    (∃ t, (SocketMonitor.new true).run (hearing 7) = some t ∧ t.updates.getLast? = some (cstr "Add connection", lastInfos 7)) ∧
      (∃ t, (SocketMonitor.new true).run (hearing 9) = some t ∧ t.updates.getLast? = some (cstr "Add connection", lastInfos 9)) ∧
      ¬ Distinguishes (lastInfos 7) (lastInfos 9) := by
  refine ⟨⟨_, rfl, rfl⟩, ⟨_, rfl, rfl⟩, fun h => ?_⟩
  have hentry : entry 0 ((pinged 7).info ((pinged 7).connections.head (List.cons_ne_nil _ _))) =
      entry 0 ((pinged 9).info ((pinged 9).connections.head (List.cons_ne_nil _ _))) := rfl
  refine h 0 _ _ rfl rfl ⟨_, received_mem_labels, by decide⟩ ?_
  rw [getElem?_entries (by decide), getElem?_entries (by decide)]
  exact congrArg some hentry

end

end ProbICE.IceProber

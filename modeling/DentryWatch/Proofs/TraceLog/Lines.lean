import DentryWatch.Proofs.Text.Splitting
import DentryWatch.Proofs.Text.Utf8
import DentryWatch.Proofs.TraceLog.Journals

/-!
# Lines of trace files

A row is one line of six columns, and none of them has a tab or a line feed. So a
file falls into its header and its rows again, and the header stands nowhere else.
-/

namespace DentryWatch.TraceLog

/-! ## Columns -/

/-- Characters without any that breaks the frame of a row. -/
def Plain (chars : List Char) : Prop := ∀ c ∈ chars, breaksRow c = false

theorem Plain.append {chars others : List Char} (h : Plain chars) (hothers : Plain others) :
    Plain (chars ++ others) := by
  intro c hmem
  rcases List.mem_append.1 hmem with hmem | hmem
  · exact h c hmem
  · exact hothers c hmem

theorem Plain.cons {c : Char} {others : List Char} (hc : breaksRow c = false)
    (hothers : Plain others) : Plain (c :: others) := by
  intro d hmem
  rcases List.mem_cons.1 hmem with rfl | hmem
  · exact hc
  · exact hothers d hmem

theorem Plain.nil : Plain [] := fun _ hmem => absurd hmem List.not_mem_nil

theorem Plain.not_mem {chars : List Char} (h : Plain chars) {c : Char} (hc : breaksRow c = true) :
    c ∉ chars := by
  intro hmem
  rw [h c hmem] at hc
  cases hc

theorem plain_of_all {chars : List Char} (h : (chars.all fun c => !breaksRow c) = true) :
    Plain chars := by
  intro c hmem
  have hc := List.all_eq_true.1 h c hmem
  simpa using hc

theorem plain_of_isDigit {chars : List Char} (h : ∀ c ∈ chars, c.isDigit = true) : Plain chars := by
  intro c hmem
  have hdigit := h c hmem
  cases hbreaks : breaksRow c with
  | false => rfl
  | true =>
      simp only [breaksRow, Bool.or_eq_true, decide_eq_true_eq] at hbreaks
      rcases hbreaks with (rfl | rfl) | rfl <;> exact absurd hdigit (by decide)

theorem plain_decimal (n : Nat) : Plain (Text.decimal n) :=
  plain_of_isDigit fun _ => Text.isDigit_of_mem_decimal

theorem plain_padded (width n : Nat) : Plain (Instant.padded width n) := by
  refine plain_of_isDigit fun c hmem => ?_
  rw [Instant.padded, List.leftpad] at hmem
  rcases List.mem_append.1 hmem with hzero | hdigit
  · rw [(List.mem_replicate.1 hzero).2]
    rfl
  · exact Text.isDigit_of_mem_decimal hdigit

theorem plain_yearText (year : Int) : Plain (Instant.yearText year) := by
  rw [Instant.yearText]
  split
  · exact plain_padded _ _
  · refine .cons ?_ (plain_padded _ _)
    split <;> rfl

theorem plain_secondsText (instant : Instant) : Plain instant.secondsText :=
  (((((plain_yearText _).append (.cons rfl (plain_padded _ _))).append
    (.cons rfl (plain_padded _ _))).append (.cons rfl (plain_padded _ _))).append
      (.cons rfl (plain_padded _ _))).append (.cons rfl (plain_padded _ _))

theorem plain_nanosText (instant : Instant) : Plain instant.nanosText :=
  ((plain_secondsText instant).append (.cons rfl (plain_padded _ _))).append (.cons rfl .nil)

theorem plain_columns (record : Record) (path : List Char) :
    ∀ column ∈ columns record (framed path), Plain column := by
  intro column hmem
  simp only [columns, List.mem_cons, List.not_mem_nil, or_false] at hmem
  rcases hmem with rfl | rfl | rfl | rfl | rfl
  · exact plain_decimal _
  · refine plain_of_all ?_
    cases record.operation <;> decide
  · exact plain_decimal _
  · refine plain_of_all ?_
    cases record.rootReached <;> decide
  · exact fun c hc => not_breaksRow_of_mem_framed hc

/-! ## Rows -/

theorem lineFeed_not_mem_intercalate {columns : List (List Char)}
    (h : ∀ column ∈ columns, Plain column) : '\n' ∉ ['\t'].intercalate columns :=
  not_mem_intercalate (by decide) fun column hmem => (h column hmem).not_mem rfl

theorem count_tab_intercalate {columns : List (List Char)}
    (h : ∀ column ∈ columns, Plain column) :
    (['\t'].intercalate columns).count '\t' = columns.length - 1 := by
  induction columns with
  | nil => rfl
  | cons first rest ih =>
      have hfirst : first.count '\t' = 0 :=
        List.count_eq_zero.2 ((h first List.mem_cons_self).not_mem rfl)
      have hrest := ih fun column hmem => h column (List.mem_cons_of_mem _ hmem)
      cases rest with
      | nil => rwa [List.intercalate_singleton]
      | cons second rest =>
          rw [List.intercalate_cons_cons, List.count_append, List.count_append, hfirst, hrest,
            List.count_singleton_self]
          simp only [List.length_cons]
          omega

def lineFeed : UInt8 := 0x0A

def tab : UInt8 := 0x09

/-- A text that ends with its only line feed. -/
def IsLine (text : Bytes) : Prop := ∃ body, text = body ++ [lineFeed] ∧ lineFeed ∉ body

theorem encodeChars_line (columns : List (List Char)) :
    Utf8.encodeChars (line columns) =
      Utf8.encodeChars (['\t'].intercalate columns) ++ [lineFeed] := by
  rw [line, Utf8.encodeChars_append]
  rfl

theorem plain_row (seen : Instant) (record : Record) (path : String) :
    ∀ column ∈ seen.nanosText :: columns record (framed path.toList), Plain column := by
  intro column hmem
  rcases List.mem_cons.1 hmem with rfl | hmem
  · exact plain_nanosText seen
  · exact plain_columns record path.toList column hmem

theorem isLine_rowBytes (seen : Instant) (record : Record) (path : String) :
    IsLine (rowBytes seen record path) := by
  refine ⟨_, encodeChars_line _, fun hmem => ?_⟩
  have hfeed : '\n' ∈ ['\t'].intercalate (seen.nanosText :: columns record (framed path.toList)) :=
    (Utf8.mem_encodeChars_iff (by decide)).1 hmem
  exact lineFeed_not_mem_intercalate (plain_row seen record path) hfeed

/-! ## The header -/

def firstTitle : Bytes := Utf8.encodeChars "timestamp".toList

def otherTitles : Bytes :=
  Utf8.encodeChars "group_id\toperation\tdepth\troot_reached\tpath\n".toList

theorem headerBytes_eq : headerBytes = firstTitle ++ tab :: otherTitles := by decide

theorem isLine_headerBytes : IsLine headerBytes :=
  ⟨headerBytes.dropLast, by decide, by decide⟩

/-- No row ends like the header, since its first column ends with the letter of the zone. -/
theorem rowBytes_ne_append_header (seen : Instant) (record : Record) (path : String)
    (front : Bytes) : rowBytes seen record path ≠ front ++ headerBytes := by
  intro heq
  have hrow : rowBytes seen record path = Utf8.encodeChars seen.nanosText ++ tab ::
      (Utf8.encodeChars (['\t'].intercalate (columns record (framed path.toList))) ++
        [lineFeed]) := by
    rw [rowBytes, row, encodeChars_line, columns, List.intercalate_cons_cons,
      Utf8.encodeChars_append, Utf8.encodeChars_append, List.append_assoc, List.append_assoc]
    rfl
  have hplain : tab ∉ Utf8.encodeChars seen.nanosText := by
    intro hmem
    have htab : '\t' ∈ seen.nanosText := (Utf8.mem_encodeChars_iff (by decide)).1 hmem
    exact (plain_nanosText seen).not_mem rfl htab
  have hcount : (Utf8.encodeChars (['\t'].intercalate (columns record (framed path.toList)))).count
      tab = 4 :=
    (Utf8.count_encodeChars '\t' (by decide) _).trans
      (count_tab_intercalate (plain_columns record path.toList))
  have htabs := congrArg (List.count tab) heq
  rw [hrow, headerBytes_eq, List.count_append, List.count_eq_zero.2 hplain, List.count_cons_self,
    List.count_append, hcount, ← List.append_assoc, List.count_append, List.count_cons_self,
    List.count_append] at htabs
  have hfront : tab ∉ front ++ firstTitle := by
    rw [← List.count_eq_zero, List.count_append]
    have hother : otherTitles.count tab = 4 := by decide
    have hfeed : ([lineFeed] : Bytes).count tab = 0 := by decide
    omega
  rw [hrow, headerBytes_eq, ← List.append_assoc] at heq
  have hfirst := congrArg List.getLast? (cut_unique hplain hfront heq)
  rw [Instant.nanosText, Utf8.encodeChars_append, List.getLast?_append, List.getLast?_append]
    at hfirst
  have hzone : (Utf8.encodeChars ['Z']).getLast? = some 0x5A := by decide
  have htitle : firstTitle.getLast? = some 0x70 := by decide
  rw [hzone, htitle, Option.some_or, Option.some_or] at hfirst
  exact absurd hfirst (by decide)

/-! ## Files -/

/-- The lines of a text that end with a line feed, each with it. -/
def linesOf (text : Bytes) : List Bytes :=
  (text.splitOn lineFeed).dropLast.map (· ++ [lineFeed])

def dataRows (text : Bytes) : List Bytes := (linesOf text).drop 1

/-- A row that a log can write. -/
def IsRow (row : Bytes) : Prop := ∃ seen record path, row = rowBytes seen record path

theorem IsRow.isLine {row : Bytes} (h : IsRow row) : IsLine row := by
  obtain ⟨seen, record, path, rfl⟩ := h
  exact isLine_rowBytes seen record path

/-- Lines put together fall apart again. -/
theorem linesOf_flatten {lines : List Bytes} (h : ∀ line ∈ lines, IsLine line) :
    linesOf lines.flatten = lines := by
  induction lines with
  | nil => rfl
  | cons line rest ih =>
      obtain ⟨body, rfl, hbody⟩ := h line List.mem_cons_self
      have hrest := ih fun line hmem => h line (List.mem_cons_of_mem _ hmem)
      rw [linesOf] at hrest ⊢
      rw [List.flatten_cons, List.append_assoc, List.singleton_append,
        List.splitOn_append_cons_self_of_not_mem hbody,
        List.dropLast_cons_of_ne_nil (List.splitOn_ne_nil _ _), List.map_cons, hrest]

theorem isLine_of_mem_header {rows : List Bytes} (h : ∀ row ∈ rows, IsRow row) :
    ∀ line ∈ headerBytes :: rows, IsLine line := by
  intro line hmem
  rcases List.mem_cons.1 hmem with rfl | hmem
  · exact isLine_headerBytes
  · exact (h line hmem).isLine

/-- The rows of a file are read back from it. -/
theorem dataRows_fileBytes {rows : List Bytes} (h : ∀ row ∈ rows, IsRow row) :
    dataRows (fileBytes rows) = rows := by
  have hlines := linesOf_flatten (isLine_of_mem_header h)
  rw [List.flatten_cons] at hlines
  rw [dataRows, fileBytes, hlines]
  rfl

/-- Where the header stands in a text, it is the end of a line. -/
theorem exists_line_of_header {lines : List Bytes} (h : ∀ line ∈ lines, IsLine line)
    {before after : Bytes} (heq : lines.flatten = before ++ headerBytes ++ after) :
    ∃ earlier front later, lines = earlier ++ (front ++ headerBytes) :: later ∧
      before = earlier.flatten ++ front := by
  obtain ⟨titles, htitles, hplain⟩ := isLine_headerBytes
  induction lines generalizing before with
  | nil =>
      have hnil := (List.append_eq_nil_iff.1 heq.symm).1
      exact absurd (List.append_eq_nil_iff.1 hnil).2 (by decide)
  | cons line rest ih =>
      obtain ⟨body, rfl, hbody⟩ := h line List.mem_cons_self
      by_cases hfeed : lineFeed ∈ before
      · -- the header comes in a later line
        obtain ⟨first, others, rfl, hfirst⟩ := List.eq_append_cons_of_mem hfeed
        have hwhole : body ++ lineFeed :: rest.flatten =
            first ++ lineFeed :: (others ++ headerBytes ++ after) := by
          simpa using heq
        obtain rfl := cut_unique hbody hfirst hwhole
        have htail := (List.cons_eq_cons.1 (List.append_cancel_left hwhole)).2
        obtain ⟨earlier, front, later, hrest, hothers⟩ :=
          ih (fun line hmem => h line (List.mem_cons_of_mem _ hmem)) htail
        refine ⟨(body ++ [lineFeed]) :: earlier, front, later, by rw [hrest]; rfl, ?_⟩
        rw [hothers]
        simp
      · -- the header is the end of this line
        have hwhole : body ++ lineFeed :: rest.flatten =
            (before ++ titles) ++ lineFeed :: after := by
          rw [htitles] at heq
          simpa using heq
        have hfront : lineFeed ∉ before ++ titles := by
          intro hmem
          rcases List.mem_append.1 hmem with hmem | hmem
          · exact hfeed hmem
          · exact hplain hmem
        obtain rfl := cut_unique hbody hfront hwhole
        refine ⟨[], before, rest, ?_, rfl⟩
        rw [htitles, List.nil_append, List.append_assoc]

/-- The header stands only at the beginning of a file. -/
theorem header_once {rows : List Bytes} (h : ∀ row ∈ rows, IsRow row) {before after : Bytes}
    (heq : fileBytes rows = before ++ headerBytes ++ after) : before = [] := by
  obtain ⟨earlier, front, later, hlines, rfl⟩ :=
    exists_line_of_header (isLine_of_mem_header h) (heq : (headerBytes :: rows).flatten = _)
  cases earlier with
  | nil =>
      have hfirst := (List.cons_eq_cons.1 hlines).1
      have hfront : front = [] := by
        have hlength := congrArg List.length hfirst
        rw [List.length_append] at hlength
        exact List.eq_nil_of_length_eq_zero (by omega)
      rw [hfront]
      rfl
  | cons first earlier =>
      have hrest := (List.cons_eq_cons.1 hlines).2
      have hmem : front ++ headerBytes ∈ rows := by
        rw [hrest]
        exact List.mem_append_right _ List.mem_cons_self
      obtain ⟨seen, record, path, hrow⟩ := h _ hmem
      exact absurd hrow.symm (rowBytes_ne_append_header seen record path front)

end DentryWatch.TraceLog

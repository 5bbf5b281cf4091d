import Linewise.Proofs.Metrics
import Linewise.Proofs.Shortest

/-!
# The text form of metrics

The text form is made of lines: two remarks that introduce a family, and then one line for each
sample, with a name, the label between quotes, perhaps the bound of a bucket, and a number. A
reader takes such lines apart without knowing any metrics: it unescapes the label and goes by
the signs between the parts. Labels may hold any bytes, since those that would end a label or
a line are escaped.

So what the text says can be told by what is read from it: a family has one line for each
label of its series, in their order, with the number that the counter has there. Text
numbers are read back as the numbers they were, and up to `2 ^ 53` these are exact.

## Main definitions

* `Exposition.Line`: a remark or a sample
* `Exposition.read?`: reads the lines of a text
* `Exposition.values`: the labels and numbers listed under a name
* `Metrics.listing`: the lines of metrics
* `Metrics.Reports`: what lines say of one run

## Main results

* `Exposition.read?_textOf`: what is written line by line is read back
* `Metrics.read?_exposition`: the text form has the lines of the metrics
* `Metrics.values_listing`, `Metrics.values_listing_runs`: what is listed for a counter, and for
  the number of durations
* `Metrics.values_listing_eq_samples`: these are the recorded values
* `Metrics.exposition_observe`: the text form of one observation
-/

namespace Linewise

/-! ## Reading the text form -/

namespace Exposition

/-- **A sample as it is listed.** -/
structure Sample where
  /-- The name. -/
  name : Bytes
  /-- The label. -/
  label : Bytes
  /-- The bound of a bucket, if it is one. -/
  bound : Option Bytes
  /-- The text of the number. -/
  number : Bytes
deriving DecidableEq, Repr

/-- **A line of the text form.** -/
inductive Line where
  /-- A remark on a family. -/
  | remark (text : Bytes)
  /-- A sample. -/
  | sample (sample : Sample)
deriving DecidableEq, Repr

/-- A text up to its closing quote, without its escapes, and what follows the quote. -/
def inside? : Bytes → Option (Bytes × Bytes)
  | [] => none
  | b :: rest =>
    if b = ascii '"' then some ([], rest)
    else if b = ascii '\\' then
      match rest with
      | [] => none
      | c :: rest =>
        let escaped := if c = ascii 'n' then Bytes.lineFeed else c
        (inside? rest).map fun (text, rest) => (escaped :: text, rest)
    else (inside? rest).map fun (text, rest) => (b :: text, rest)

/-- The value that stands behind a key, and what follows it. -/
def valueOf? (key text : Bytes) : Option (Bytes × Bytes) :=
  (Bytes.afterStart? (key ++ utf8 "=\"") text).bind inside?

/-- Reads a sample. -/
def sample? (line : Bytes) : Option Sample := do
  let name := line.takeWhile (· ≠ ascii '\x7b')
  let (label, rest) ← valueOf? (utf8 "\x7btransform") (line.dropWhile (· ≠ ascii '\x7b'))
  match Bytes.afterStart? (utf8 "\x7d ") rest with
  | some number => return ⟨name, label, none, number⟩
  | none =>
    let (bound, rest) ← valueOf? (utf8 ",le") rest
    let number ← Bytes.afterStart? (utf8 "\x7d ") rest
    return ⟨name, label, some bound, number⟩

/-- Reads a line. -/
def line? (line : Bytes) : Option Line :=
  match Bytes.afterStart? (utf8 "# ") line with
  | some text => some (.remark text)
  | none => (sample? line).map .sample

/-- **Reads the lines of a text**; those that are empty do not count. -/
def read? (text : Bytes) : Option (List Line) :=
  ((List.splitOn Bytes.lineFeed text).filter fun line => !line.isEmpty).mapM line?

/-- The number that a text stands for. -/
def number? (text : Bytes) : Option Binary64 :=
  (Fraction.read? text).bind Fraction.toBinary64

/-- The sample of a line, if it is one. -/
def Line.sample? : Line → Option Sample
  | remark _ => none
  | sample s => some s

/-- **What is listed under a name**: each label, with its number. -/
def values (name : Bytes) (lines : List Line) : List (Bytes × Option Binary64) :=
  ((lines.filterMap Line.sample?).filter (·.name = name)).map fun s => (s.label, number? s.number)

/-! ## Writing and reading a line -/

/-- How a bound is written behind a label. -/
def boundText : Option Bytes → Bytes
  | none => []
  | some bound => utf8 ",le=\"" ++ bound ++ utf8 "\""

/-- How a line is written. -/
def Line.text : Line → Bytes
  | remark text => utf8 "# " ++ text
  | sample s => s.name ++ Metrics.labels s.label (boundText s.bound) ++ s.number

/-- How lines are written. -/
def textOf (lines : List Line) : Bytes :=
  lines.flatMap fun line => line.text ++ [Bytes.lineFeed]

section TextOf

variable {α : Type}

theorem textOf_nil : textOf [] = [] := rfl

theorem textOf_cons (line : Line) (lines : List Line) :
    textOf (line :: lines) = line.text ++ [Bytes.lineFeed] ++ textOf lines := rfl

theorem textOf_append (lines lines' : List Line) :
    textOf (lines ++ lines') = textOf lines ++ textOf lines' :=
  List.flatMap_append

theorem textOf_map (line : α → Line) (xs : List α) :
    textOf (xs.map line) = xs.flatMap fun x => (line x).text ++ [Bytes.lineFeed] :=
  List.flatMap_map ..

theorem textOf_flatMap (lines : α → List Line) (xs : List α) :
    textOf (xs.flatMap lines) = xs.flatMap fun x => textOf (lines x) :=
  List.flatMap_assoc

end TextOf

/-- A byte that needs no escape and ends no line. -/
def isPlain (b : UInt8) : Bool :=
  b ≠ Bytes.lineFeed && b ≠ ascii '\\' && b ≠ ascii '"'

/-- A name does not begin like a remark, and ends at a brace. -/
def isName (name : Bytes) : Bool :=
  name.head?.any (· ≠ ascii '#') && name.all fun b => b ≠ Bytes.lineFeed && b ≠ ascii '\x7b'

/-- **A line that is read back**: what is not escaped holds no sign that would end it. -/
def Line.Fits : Line → Prop
  | remark text => Bytes.lineFeed ∉ text
  | sample s =>
    isName s.name = true ∧ (∀ bound ∈ s.bound, ∀ b ∈ bound, isPlain b = true) ∧
      ∀ b ∈ s.number, isPlain b = true

theorem exists_cons_of_isName {name : Bytes} (h : isName name = true) :
    ∃ b rest, name = b :: rest ∧ b ≠ ascii '#' := by
  rcases name with _ | ⟨b, rest⟩
  · exact absurd h Bool.false_ne_true
  · refine ⟨b, rest, rfl, ?_⟩
    simpa using (Bool.and_eq_true_iff.mp h).1

theorem ne_of_isName {name : Bytes} (h : isName name = true) {b : UInt8} (hb : b ∈ name) :
    b ≠ Bytes.lineFeed ∧ b ≠ ascii '\x7b' := by
  simpa using List.all_eq_true.mp (Bool.and_eq_true_iff.mp h).2 b hb

theorem lineFeed_not_mem_of_plain {text : Bytes} (h : ∀ b ∈ text, isPlain b = true) :
    Bytes.lineFeed ∉ text := fun hmem => absurd (h _ hmem) (by decide)

theorem afterStart?_self (start text : Bytes) :
    Bytes.afterStart? start (start ++ text) = some text := by
  induction start with
  | nil => rfl
  | cons b start ih => simpa [Bytes.afterStart?] using ih

theorem inside?_quote (rest : Bytes) : inside? (ascii '"' :: rest) = some ([], rest) := by
  rw [inside?.eq_def]
  exact if_pos rfl

theorem inside?_backslash (c : UInt8) (rest : Bytes) :
    inside? (ascii '\\' :: c :: rest)
      = (inside? rest).map fun (text, rest) =>
          ((if c = ascii 'n' then Bytes.lineFeed else c) :: text, rest) := by
  rw [inside?.eq_def]
  exact (if_neg (by decide)).trans (if_pos rfl)

theorem inside?_cons {b : UInt8} (hquote : b ≠ ascii '"') (hslash : b ≠ ascii '\\') (rest : Bytes) :
    inside? (b :: rest) = (inside? rest).map fun (text, rest) => (b :: text, rest) := by
  rw [inside?.eq_def]
  exact (if_neg hquote).trans (if_neg hslash)

/-- What is escaped is read back up to the closing quote. -/
theorem inside?_escapeLabel (label rest : Bytes) :
    inside? (Metrics.escapeLabel label ++ ascii '"' :: rest) = some (label, rest) := by
  induction label with
  | nil => exact inside?_quote rest
  | cons b label ih =>
    have hslashes : utf8 "\\\\" = [ascii '\\', ascii '\\'] := by decide
    have hfeeds : utf8 "\\n" = [ascii '\\', ascii 'n'] := by decide
    have hquotes : utf8 "\\\"" = [ascii '\\', ascii '"'] := by decide
    rw [Metrics.escapeLabel, List.flatMap_cons, ← Metrics.escapeLabel, List.append_assoc]
    split_ifs with hslash hfeed hquote
    · rw [hslash, hslashes, List.cons_append, List.singleton_append, inside?_backslash, ih,
        if_neg (by decide)]
      rfl
    · rw [hfeed, hfeeds, List.cons_append, List.singleton_append, inside?_backslash, ih, if_pos rfl]
      rfl
    · rw [hquote, hquotes, List.cons_append, List.singleton_append, inside?_backslash, ih,
        if_neg (by decide)]
      rfl
    · rw [List.singleton_append, inside?_cons hquote hslash, ih]
      rfl

theorem escapeLabel_of_plain {bound : Bytes} (h : ∀ b ∈ bound, isPlain b = true) :
    Metrics.escapeLabel bound = bound := by
  induction bound with
  | nil => rfl
  | cons b bound ih =>
    obtain ⟨hb, hbound⟩ := List.forall_mem_cons.mp h
    simp only [isPlain, Bool.and_eq_true, decide_eq_true_eq] at hb
    rw [Metrics.escapeLabel, List.flatMap_cons, ← Metrics.escapeLabel, ih hbound, if_neg hb.1.2,
      if_neg hb.1.1, if_neg hb.2]
    rfl

theorem valueOf?_escapeLabel (key label rest : Bytes) :
    valueOf? key (key ++ (utf8 "=\"" ++ (Metrics.escapeLabel label ++ ascii '"' :: rest)))
      = some (label, rest) := by
  rw [valueOf?, ← List.append_assoc, afterStart?_self, Option.bind_some, inside?_escapeLabel]

theorem labels_append (label more rest : Bytes) :
    Metrics.labels label more ++ rest
      = utf8 "\x7btransform" ++ (utf8 "=\"" ++ (Metrics.escapeLabel label ++ ascii '"' ::
          (more ++ (utf8 "\x7d " ++ rest)))) := by
  have hopen : utf8 "\x7btransform=\"" = utf8 "\x7btransform" ++ utf8 "=\"" := by decide
  have hquote : utf8 "\"" = [ascii '"'] := by decide
  simp only [Metrics.labels, hopen, hquote, List.append_assoc, List.cons_append,
    List.nil_append]

theorem boundText_append {bound : Bytes} (h : ∀ b ∈ bound, isPlain b = true) (rest : Bytes) :
    boundText (some bound) ++ rest
      = utf8 ",le" ++ (utf8 "=\"" ++ (Metrics.escapeLabel bound ++ ascii '"' :: rest)) := by
  have hopen : utf8 ",le=\"" = utf8 ",le" ++ utf8 "=\"" := by decide
  have hquote : utf8 "\"" = [ascii '"'] := by decide
  simp only [boundText, hopen, hquote, escapeLabel_of_plain h, List.append_assoc,
    List.singleton_append]

/-- The name of a sample ends at the brace. -/
theorem span_name {name : Bytes} (h : ∀ b ∈ name, b ≠ ascii '\x7b') (label more rest : Bytes) :
    (name ++ (Metrics.labels label more ++ rest)).takeWhile (· ≠ ascii '\x7b') = name ∧
      (name ++ (Metrics.labels label more ++ rest)).dropWhile (· ≠ ascii '\x7b')
        = Metrics.labels label more ++ rest := by
  have hbrace : utf8 "\x7btransform" = ascii '\x7b' :: utf8 "transform" := by decide
  have hname : ∀ b ∈ name, (fun b => decide (b ≠ ascii '\x7b')) b = true := by simpa using h
  rw [labels_append, hbrace, List.takeWhile_append_of_pos hname, List.dropWhile_append_of_pos hname]
  simp

/-- **A sample is read back from its line.** -/
theorem sample?_text {s : Sample} (h : (Line.sample s).Fits) :
    sample? (Line.sample s).text = some s := by
  obtain ⟨name, label, bound, number⟩ := s
  obtain ⟨hname, hbound, -⟩ := h
  obtain ⟨hfront, hback⟩ := span_name (fun b hb => (ne_of_isName hname hb).2) label
    (boundText bound) number
  rw [Line.text, List.append_assoc, sample?, hfront, hback, labels_append, valueOf?_escapeLabel]
  cases bound with
  | none => rfl
  | some bound =>
    have hcomma : Bytes.afterStart? (utf8 "\x7d ")
        (boundText (some bound) ++ (utf8 "\x7d " ++ number)) = none := rfl
    have hbounded := valueOf?_escapeLabel (utf8 ",le") bound (utf8 "\x7d " ++ number)
    rw [← boundText_append (hbound bound rfl)] at hbounded
    simp only [Option.bind_eq_bind, Option.bind_some, hcomma, hbounded, afterStart?_self]
    rfl

/-- **A line is read back.** -/
theorem line?_text {line : Line} (h : line.Fits) : line? line.text = some line := by
  cases line with
  | remark text => rw [line?, Line.text, afterStart?_self]
  | sample s =>
    have hnone : Bytes.afterStart? (utf8 "# ") (Line.sample s).text = none := by
      obtain ⟨b, rest, hname, hb⟩ := exists_cons_of_isName h.1
      have htext : (Line.sample s).text
          = b :: (rest ++ Metrics.labels s.label (boundText s.bound) ++ s.number) := by
        rw [Line.text, hname, List.cons_append, List.cons_append]
      rw [htext]
      exact if_neg hb.symm
    rw [line?, hnone]
    exact congrArg (Option.map Line.sample) (sample?_text h)

theorem lineFeed_not_mem_escapeLabel (label : Bytes) :
    Bytes.lineFeed ∉ Metrics.escapeLabel label := by
  intro hmem
  obtain ⟨b, -, hb⟩ := List.mem_flatMap.mp hmem
  split_ifs at hb with hslash hfeed hquote
  · exact absurd hb (by decide)
  · exact absurd hb (by decide)
  · exact absurd hb (by decide)
  · exact hfeed (List.mem_singleton.mp hb).symm

theorem lineFeed_not_mem_boundText {bound : Option Bytes}
    (h : ∀ text ∈ bound, ∀ b ∈ text, isPlain b = true) : Bytes.lineFeed ∉ boundText bound := by
  cases bound with
  | none => exact List.not_mem_nil
  | some text =>
    have htext : Bytes.lineFeed ∉ text := lineFeed_not_mem_of_plain (h text rfl)
    have hstart : Bytes.lineFeed ∉ utf8 ",le=\"" := by decide
    have hend : Bytes.lineFeed ∉ utf8 "\"" := by decide
    simp only [boundText, List.mem_append, hstart, htext, hend, or_self, not_false_eq_true]

/-- A line ends where it ends. -/
theorem lineFeed_not_mem_text {line : Line} (h : line.Fits) : Bytes.lineFeed ∉ line.text := by
  cases line with
  | remark text =>
    have hstart : Bytes.lineFeed ∉ utf8 "# " := by decide
    exact fun hmem => (List.mem_append.mp hmem).elim hstart h
  | sample s =>
    obtain ⟨hname, hbound, hnumber⟩ := h
    have hname : Bytes.lineFeed ∉ s.name := fun hmem => (ne_of_isName hname hmem).1 rfl
    have hnumber : Bytes.lineFeed ∉ s.number := lineFeed_not_mem_of_plain hnumber
    have hstart : Bytes.lineFeed ∉ utf8 "\x7btransform=\"" := by decide
    have hquote : Bytes.lineFeed ∉ utf8 "\"" := by decide
    have hend : Bytes.lineFeed ∉ utf8 "\x7d " := by decide
    simp only [Line.text, Metrics.labels, List.mem_append, hname, hnumber, hstart, hquote, hend,
      lineFeed_not_mem_escapeLabel, lineFeed_not_mem_boundText hbound, or_self, not_false_eq_true]

theorem text_ne_nil {line : Line} (h : line.Fits) : line.text ≠ [] := by
  cases line with
  | remark text => exact List.append_ne_nil_of_left_ne_nil (by decide) _
  | sample s =>
    obtain ⟨b, rest, hname, -⟩ := exists_cons_of_isName h.1
    have hne : s.name ≠ [] := by simp [hname]
    exact List.append_ne_nil_of_left_ne_nil (List.append_ne_nil_of_left_ne_nil hne _) _

theorem splitOn_textOf {lines : List Line} (h : ∀ line ∈ lines, line.Fits) :
    List.splitOn Bytes.lineFeed (textOf lines) = lines.map Line.text ++ [[]] := by
  induction lines with
  | nil => rfl
  | cons line lines ih =>
    obtain ⟨hline, hlines⟩ := List.forall_mem_cons.mp h
    have hwhole : List.splitOnP (· == Bytes.lineFeed) line.text = [line.text] :=
      List.splitOnP_eq_singleton fun b hb => by
        simpa using fun heq : b = Bytes.lineFeed => lineFeed_not_mem_text hline (heq ▸ hb)
    rw [textOf_cons, List.append_assoc, List.singleton_append, List.splitOn,
      List.splitOnP_append_cons _ _ (by simp), hwhole, ← List.splitOn, ih hlines]
    rfl

theorem mapM_line? {lines : List Line} (h : ∀ line ∈ lines, line.Fits) :
    (lines.map Line.text).mapM line? = some lines := by
  induction lines with
  | nil => rfl
  | cons line lines ih =>
    obtain ⟨hline, hlines⟩ := List.forall_mem_cons.mp h
    rw [List.map_cons, List.mapM_cons, line?_text hline, ih hlines]
    rfl

/-- **What is written line by line is read back.** -/
theorem read?_textOf {lines : List Line} (h : ∀ line ∈ lines, line.Fits) :
    read? (textOf lines) = some lines := by
  have hkept : (lines.map Line.text ++ [[]]).filter (fun text => !text.isEmpty)
      = lines.map Line.text := by
    rw [List.filter_append, List.filter_eq_self.mpr]
    · exact List.append_nil _
    · intro text hmem
      obtain ⟨line, hline, rfl⟩ := List.mem_map.mp hmem
      simpa using text_ne_nil (h line hline)
  rw [read?, splitOn_textOf h, hkept, mapM_line? h]

/-! ## Numbers -/

theorem isPlain_of_isDigit {b : UInt8} (h : Bytes.isDigit b = true) : isPlain b = true := by
  have hne : ∀ c, Bytes.isDigit c = false → b ≠ c := by
    rintro c hc rfl
    exact Bool.false_ne_true (hc.symm.trans h)
  simp [isPlain, hne Bytes.lineFeed rfl, hne (ascii '\\') rfl, hne (ascii '"') rfl]

theorem isPlain_ofNat (n : Nat) : ∀ b ∈ Bytes.ofNat n, isPlain b = true :=
  fun _ h => isPlain_of_isDigit (isDigit_ofNat h)

theorem isPlain_zeros (n : Nat) : ∀ b ∈ List.replicate n (ascii '0'), isPlain b = true :=
  fun _ h => isPlain_of_isDigit (Fraction.isDigit_of_mem_replicate h)

theorem isPlain_positional (d : Decimal) : ∀ b ∈ d.positional, isPlain b = true := by
  rw [Decimal.positional]
  have hdigits := isPlain_ofNat d.digits
  split_ifs
  · exact hdigits
  · exact List.forall_mem_append.mpr ⟨hdigits, isPlain_zeros _⟩
  · have hpadded := List.forall_mem_append.mpr
      ⟨isPlain_zeros ((-d.exponent).toNat + 1 - (Bytes.ofNat d.digits).length), hdigits⟩
    refine List.forall_mem_append.mpr ⟨fun b hb => hpadded b (List.mem_of_mem_take hb), ?_⟩
    exact List.forall_mem_cons.mpr ⟨rfl, fun b hb => hpadded b (List.mem_of_mem_drop hb)⟩

theorem isPlain_scientific (d : Decimal) : ∀ b ∈ d.scientific, isPlain b = true := by
  have hdigits := isPlain_ofNat d.digits
  have hpart : ∀ b ∈ (if (Bytes.ofNat d.digits).length > 1 then
      ascii '.' :: (Bytes.ofNat d.digits).drop 1 else []), isPlain b = true := by
    split_ifs
    · exact List.forall_mem_cons.mpr ⟨rfl, fun b hb => hdigits b (List.mem_of_mem_drop hb)⟩
    · exact List.forall_mem_nil _
  have hsign (negative : Prop) [Decidable negative] :
      ∀ b ∈ [ascii 'e', ascii (if negative then '-' else '+')], isPlain b = true := by
    split_ifs <;> exact List.forall_mem_cons.mpr ⟨rfl, List.forall_mem_singleton.mpr rfl⟩
  simp only [Decimal.scientific, List.forall_mem_append]
  exact ⟨⟨⟨⟨fun b hb => hdigits b (List.mem_of_mem_take hb), hpart⟩, hsign _⟩, isPlain_zeros _⟩,
    isPlain_ofNat _⟩

/-- The text of a number needs no escape. -/
theorem isPlain_compactText (x : Binary64) : ∀ b ∈ x.compactText, isPlain b = true := by
  cases x with
  | finite negative m e =>
    have hsign : ∀ b ∈ Binary64.sign negative, isPlain b = true := by
      cases negative
      · exact List.forall_mem_nil _
      · exact List.forall_mem_singleton.mpr rfl
    simp only [Binary64.compactText]
    split_ifs
    · exact List.forall_mem_append.mpr ⟨hsign, isPlain_scientific _⟩
    · exact List.forall_mem_append.mpr ⟨hsign, isPlain_positional _⟩
  | infinite negative => cases negative <;> exact List.all_eq_true.mp rfl
  | nan => exact List.all_eq_true.mp rfl

/-- The text of a counter is read back as its value. -/
theorem number?_value (counter : Metrics.Counter) :
    number? counter.value.compactText = some counter.value :=
  Binary64.read?_compactText_ofInt counter.total.toNat_lt

end Exposition

/-! ## The lines of metrics -/

namespace Metrics

open Exposition

/-- The remarks that introduce a family. -/
def remarks (family : Family) (type : String) : List Line :=
  [.remark (utf8 "HELP " ++ family.name ++ [Bytes.space] ++ family.help),
    .remark (utf8 "TYPE " ++ family.name ++ [Bytes.space] ++ utf8 type)]

/-- The line of a counter. -/
def counterLine (family : Family) (entry : Bytes × Counter) : Line :=
  .sample ⟨family.name, entry.1, none, entry.2.value.compactText⟩

/-- The lines of a counter family; none when it has no sample. -/
def counterLines (family : Family) (series : Series Counter) : List Line :=
  if series.isEmpty then [] else remarks family "counter" ++ series.map (counterLine family)

/-- The line of a bucket. -/
def bucketLine (label bound : Bytes) (count : Nat) : Line :=
  .sample ⟨durationFamily.name ++ utf8 "_bucket", label, some bound, Bytes.ofNat count⟩

/-- The lines of one histogram. -/
def histogramLines (entry : Bytes × Histogram) : List Line :=
  (bounds.zip (cumulative 0 entry.2.buckets)).map
      (fun bucket => bucketLine entry.1 bucket.1.compactText bucket.2)
    ++ [bucketLine entry.1 (utf8 "+Inf") entry.2.count,
      .sample ⟨durationFamily.name ++ utf8 "_sum", entry.1, none, entry.2.sum.compactText⟩,
      .sample ⟨durationFamily.name ++ utf8 "_count", entry.1, none, Bytes.ofNat entry.2.count⟩]

/-- The lines of the duration family; none when it has no sample. -/
def durationLines (series : Series Histogram) : List Line :=
  if series.isEmpty then []
  else remarks durationFamily "histogram" ++ series.flatMap histogramLines

/-- **The lines of everything recorded.** -/
def listing (metrics : Metrics) : List Line :=
  (metrics.counters.flatMap fun entry => counterLines entry.1 entry.2)
    ++ durationLines metrics.durations

theorem header_eq (family : Family) (type : String) :
    header family type = textOf (remarks family type) := by
  have hhelp : utf8 "# HELP " = utf8 "# " ++ utf8 "HELP " := by decide
  have htype : utf8 "\n# TYPE " = Bytes.lineFeed :: (utf8 "# " ++ utf8 "TYPE ") := by decide
  simp only [header, remarks, textOf_cons, textOf_nil, Line.text, hhelp, htype, List.append_assoc,
    List.cons_append, List.nil_append, List.append_nil]

theorem counterText_eq (family : Family) (series : Series Counter) :
    counterText family series = textOf (counterLines family series) := by
  rw [counterText, counterLines]
  split_ifs
  · rfl
  · rw [textOf_append, header_eq, textOf_map]
    simp only [counterLine, Line.text, boundText]

theorem bucketText_eq (label bound : Bytes) (count : Nat) :
    bucketText label bound count = (bucketLine label bound count).text ++ [Bytes.lineFeed] := rfl

theorem histogramText_eq (entry : Bytes × Histogram) :
    histogramText entry.1 entry.2 = textOf (histogramLines entry) := by
  rw [histogramText, histogramLines, textOf_append, textOf_map]
  simp only [bucketText_eq, textOf_cons, textOf_nil, Line.text, boundText, List.append_assoc,
    List.append_nil]

theorem durationText_eq (series : Series Histogram) :
    durationText series = textOf (durationLines series) := by
  rw [durationText, durationLines]
  split_ifs
  · rfl
  · simp only [textOf_append, header_eq, textOf_flatMap, histogramText_eq]

/-- **The text form is written line by line.** -/
theorem exposition_eq (metrics : Metrics) : metrics.exposition = textOf metrics.listing := by
  simp only [exposition, listing, textOf_append, textOf_flatMap, counterText_eq,
    durationText_eq]

/-! ## The lines are read back -/

theorem fits_remarks {family : Family} {type : String} (hname : isName family.name = true)
    (hhelp : Bytes.lineFeed ∉ family.help) (htype : Bytes.lineFeed ∉ utf8 type) :
    ∀ line ∈ remarks family type, line.Fits := by
  have hname : Bytes.lineFeed ∉ family.name := fun hmem => (ne_of_isName hname hmem).1 rfl
  have hstart : Bytes.lineFeed ∉ utf8 "HELP " := by decide
  have hstart' : Bytes.lineFeed ∉ utf8 "TYPE " := by decide
  have hspace : Bytes.lineFeed ∉ [Bytes.space] := by decide
  refine List.forall_mem_cons.mpr ⟨?_, List.forall_mem_singleton.mpr ?_⟩ <;>
    simp only [Line.Fits, List.mem_append, hname, hhelp, htype, hstart, hstart', hspace, or_self,
      not_false_eq_true]

theorem fits_counterLines {family : Family} (hname : isName family.name = true)
    (hhelp : Bytes.lineFeed ∉ family.help) (series : Series Counter) :
    ∀ line ∈ counterLines family series, line.Fits := by
  rw [counterLines]
  split_ifs
  · exact List.forall_mem_nil _
  · refine List.forall_mem_append.mpr ⟨fits_remarks hname hhelp (by decide), ?_⟩
    exact List.forall_mem_map.mpr fun entry _ => ⟨hname, nofun, isPlain_compactText _⟩

theorem fits_histogramLines (entry : Bytes × Histogram) :
    ∀ line ∈ histogramLines entry, line.Fits := by
  have hbucket (bound : Bytes) (count : Nat) (h : ∀ b ∈ bound, isPlain b = true) :
      (bucketLine entry.1 bound count).Fits := by
    refine ⟨rfl, fun text htext => ?_, isPlain_ofNat _⟩
    obtain rfl : bound = text := Option.some.inj htext
    exact h
  refine List.forall_mem_append.mpr ⟨List.forall_mem_map.mpr fun bucket _ =>
    hbucket _ _ (isPlain_compactText _), ?_⟩
  refine List.forall_mem_cons.mpr ⟨hbucket _ _ (List.all_eq_true.mp rfl), ?_⟩
  refine List.forall_mem_cons.mpr ⟨⟨rfl, nofun, isPlain_compactText _⟩, ?_⟩
  exact List.forall_mem_singleton.mpr ⟨rfl, nofun, isPlain_ofNat _⟩

theorem fits_durationLines (series : Series Histogram) :
    ∀ line ∈ durationLines series, line.Fits := by
  rw [durationLines]
  split_ifs
  · exact List.forall_mem_nil _
  · refine List.forall_mem_append.mpr ⟨fits_remarks rfl (by decide) (by decide), ?_⟩
    exact List.forall_mem_flatMap.mpr fun entry _ => fits_histogramLines entry

theorem fits_listing (metrics : Metrics) : ∀ line ∈ metrics.listing, line.Fits := by
  refine List.forall_mem_append.mpr ⟨?_, fits_durationLines _⟩
  refine List.forall_mem_flatMap.mpr fun entry hentry => ?_
  simp only [counters, List.mem_cons, List.not_mem_nil, or_false] at hentry
  rcases hentry with rfl | rfl | rfl | rfl | rfl <;>
    exact fits_counterLines rfl (by dsimp only; decide) _

/-- **The text form has the lines of the metrics.** -/
theorem read?_exposition (metrics : Metrics) :
    read? metrics.exposition = some metrics.listing := by
  rw [exposition_eq, read?_textOf metrics.fits_listing]

/-! ## What is listed -/

section Values

variable {name : Bytes} {lines lines' : List Line}

theorem values_append :
    values name (lines ++ lines') = values name lines ++ values name lines' := by
  simp only [values, List.filterMap_append, List.filter_append, List.map_append]

theorem values_cons (line : Line) (lines : List Line) :
    values name (line :: lines) = values name [line] ++ values name lines := by
  rw [← values_append, List.singleton_append]

theorem values_remarks (family : Family) (type : String) : values name (remarks family type) = [] :=
  rfl

theorem values_counterLines (family : Family) (series : Series Counter) :
    values name (counterLines family series)
      = if family.name = name then series.map fun entry => (entry.1, some entry.2.value)
        else [] := by
  have hlines : values name (series.map (counterLine family))
      = if family.name = name then series.map fun entry => (entry.1, some entry.2.value)
        else [] := by
    induction series with
    | nil => simp [values]
    | cons entry series ih =>
      rw [List.map_cons, ← List.singleton_append, values_append, ih]
      split_ifs with hname
      · simp [values, counterLine, Line.sample?, hname, number?_value]
      · simp [values, counterLine, Line.sample?, hname]
  rw [counterLines]
  cases series with
  | nil => simp [values]
  | cons entry series =>
    rw [List.isEmpty_cons, if_neg Bool.false_ne_true, values_append, values_remarks, hlines]
    rfl

theorem values_flatMap {α : Type} (entries : List α) (f : α → List Line) :
    values name (entries.flatMap f) = entries.flatMap fun entry => values name (f entry) := by
  induction entries with
  | nil => rfl
  | cons entry entries ih => rw [List.flatMap_cons, values_append, ih, List.flatMap_cons]

theorem values_sample (s : Exposition.Sample) :
    values name [.sample s] = if s.name = name then [(s.label, number? s.number)] else [] := by
  by_cases h : s.name = name <;> simp [values, Line.sample?, h]

/-- The buckets of a histogram come under a name of their own. -/
theorem values_buckets (h : durationFamily.name ++ utf8 "_bucket" ≠ name) (label : Bytes)
    (buckets : List (Binary64 × Nat)) :
    values name (buckets.map fun bucket => bucketLine label bucket.1.compactText bucket.2)
      = [] := by
  induction buckets with
  | nil => rfl
  | cons bucket buckets ih =>
    rw [List.map_cons, ← List.singleton_append, values_append, ih, bucketLine, values_sample,
      if_neg h]
    rfl

theorem values_histogramLines (h : durationFamily.name ++ utf8 "_bucket" ≠ name)
    (h' : durationFamily.name ++ utf8 "_sum" ≠ name) (entry : Bytes × Histogram) :
    values name (histogramLines entry)
      = if durationFamily.name ++ utf8 "_count" = name then
          [(entry.1, number? (Bytes.ofNat entry.2.count))]
        else [] := by
  rw [histogramLines, values_append, values_buckets h, values_cons, values_cons (.sample _),
    bucketLine, values_sample, values_sample, values_sample, if_neg h, if_neg h']
  rfl

theorem values_durationLines (h : durationFamily.name ++ utf8 "_bucket" ≠ name)
    (h' : durationFamily.name ++ utf8 "_sum" ≠ name) (series : Series Histogram) :
    values name (durationLines series)
      = if durationFamily.name ++ utf8 "_count" = name then
          series.map fun entry => (entry.1, number? (Bytes.ofNat entry.2.count))
        else [] := by
  rw [durationLines]
  cases series with
  | nil => simp [values]
  | cons entry series =>
    rw [List.isEmpty_cons, if_neg Bool.false_ne_true, values_append, values_remarks, values_flatMap,
      List.nil_append]
    simp only [values_histogramLines h h']
    split_ifs
    · exact List.map_eq_flatMap.symm
    · simp

end Values

/-- The name that a counter is listed under. -/
def Tally.name : Tally → Bytes
  | read => utf8 "codeclean_lines_read_total"
  | written => utf8 "codeclean_lines_written_total"
  | skipped => utf8 "codeclean_lines_skipped_total"
  | parseErrors => utf8 "codeclean_parse_errors_total"
  | ioErrors => utf8 "codeclean_io_errors_total"

/-- **What is listed for a counter**: its labels, each with the value it has there. -/
theorem values_listing (metrics : Metrics) (tally : Tally) :
    values tally.name metrics.listing
      = (tally.series metrics).map fun entry => (entry.1, some entry.2.value) := by
  rw [listing, values_append, values_flatMap, counters]
  simp only [List.flatMap_cons, List.flatMap_nil, values_counterLines]
  have hdurations : values tally.name (durationLines metrics.durations) = [] := by
    rw [values_durationLines, if_neg]
    all_goals cases tally <;> decide
  rw [hdurations, List.append_nil]
  cases tally <;>
    simp +decide only [Tally.series, if_true, if_false, List.nil_append, List.append_nil]

/-- **What is listed for the number of durations.** -/
theorem values_listing_runs (metrics : Metrics) :
    values (utf8 "codeclean_run_duration_seconds_count") metrics.listing
      = metrics.durations.map fun entry => (entry.1, number? (Bytes.ofNat entry.2.count)) := by
  have hname : durationFamily.name ++ utf8 "_count"
      = utf8 "codeclean_run_duration_seconds_count" := by decide
  rw [listing, values_append, values_durationLines (by decide) (by decide), if_pos hname,
    values_flatMap, counters]
  simp +decide only [List.flatMap_cons, List.flatMap_nil, values_counterLines, if_false,
    List.nil_append]

theorem filter_samples (listed name : Bytes) (series : Series Counter) :
    (series.map fun entry => (⟨listed, entry.1, entry.2.value⟩ : Metrics.Sample)).filter
        (·.name = name)
      = if listed = name then series.map fun entry => ⟨listed, entry.1, entry.2.value⟩
        else [] := by
  rw [List.filter_map]
  split_ifs with h <;> simp [h, Function.comp_def]

/-- **The text form lists the recorded values** of each counter, in their order. -/
theorem values_listing_eq_samples (metrics : Metrics) (tally : Tally) :
    values tally.name metrics.listing
      = (metrics.samples.filter (·.name = tally.name)).map fun s => (s.label, some s.value) := by
  have hdurations : (metrics.durations.map fun entry =>
      (⟨durationFamily.name, entry.1, Binary64.ofInt entry.2.count⟩ : Metrics.Sample)).filter
        (·.name = tally.name) = [] := by
    have hname : durationFamily.name ≠ tally.name := by cases tally <;> decide
    rw [List.filter_map]
    simp [hname, Function.comp_def]
  rw [values_listing, samples, List.filter_append, hdurations, List.append_nil, counters]
  simp only [List.flatMap_cons, List.flatMap_nil, List.filter_append, filter_samples]
  cases tally <;>
    simp +decide only [Tally.series, if_true, if_false, List.nil_append, List.append_nil,
      List.map_map, List.filter_nil] <;>
    rfl

theorem mem_counterLines {family : Family} {series : Series Counter} {s : Exposition.Sample}
    (h : .sample s ∈ counterLines family series) :
    s.name = family.name ∧ ∃ entry ∈ series, entry.1 = s.label := by
  rw [counterLines] at h
  split_ifs at h
  · cases h
  · rcases List.mem_append.mp h with h | h
    · simp [remarks] at h
    · obtain ⟨entry, hentry, hline⟩ := List.mem_map.mp h
      rw [← Line.sample.inj hline]
      exact ⟨rfl, entry, hentry, rfl⟩

theorem mem_histogramLines {entry : Bytes × Histogram} {s : Exposition.Sample}
    (h : .sample s ∈ histogramLines entry) :
    durationFamily.name <+: s.name ∧ entry.1 = s.label := by
  rcases List.mem_append.mp h with h | h
  · obtain ⟨bucket, -, hline⟩ := List.mem_map.mp h
    rw [← Line.sample.inj hline]
    exact ⟨List.prefix_append _ _, rfl⟩
  · simp only [bucketLine, List.mem_cons, Line.sample.injEq, List.not_mem_nil, or_false] at h
    rcases h with rfl | rfl | rfl <;> exact ⟨List.prefix_append _ _, rfl⟩

theorem mem_durationLines {series : Series Histogram} {s : Exposition.Sample}
    (h : .sample s ∈ durationLines series) :
    durationFamily.name <+: s.name ∧ ∃ entry ∈ series, entry.1 = s.label := by
  rw [durationLines] at h
  split_ifs at h
  · cases h
  · rcases List.mem_append.mp h with h | h
    · simp [remarks] at h
    · obtain ⟨entry, hentry, h⟩ := List.mem_flatMap.mp h
      obtain ⟨hname, hlabel⟩ := mem_histogramLines h
      exact ⟨hname, entry, hentry, hlabel⟩

/-- **Each line is that of a counter or of the durations**, and has a label of their series. -/
theorem mem_listing {metrics : Metrics} {s : Exposition.Sample} (h : .sample s ∈ metrics.listing) :
    (∃ tally : Tally, s.name = tally.name ∧ ∃ entry ∈ tally.series metrics, entry.1 = s.label) ∨
      durationFamily.name <+: s.name ∧ ∃ entry ∈ metrics.durations, entry.1 = s.label := by
  rcases List.mem_append.mp h with h | h
  · obtain ⟨entry, hentry, h⟩ := List.mem_flatMap.mp h
    have hcounter := mem_counterLines h
    simp only [counters, List.mem_cons, List.not_mem_nil, or_false] at hentry
    left
    rcases hentry with rfl | rfl | rfl | rfl | rfl
    · exact ⟨.ioErrors, hcounter⟩
    · exact ⟨.read, hcounter⟩
    · exact ⟨.skipped, hcounter⟩
    · exact ⟨.written, hcounter⟩
    · exact ⟨.parseErrors, hcounter⟩
  · exact .inr (mem_durationLines h)

/-! ## One observation -/

/-- The first amount of a counter shows as it is, up to `2 ^ 53`. -/
theorem value_add {amount : Nat} (h : amount ≤ 2 ^ 53) :
    (Counter.add {} amount).value = Binary64.ofInt amount := by
  have hzero : ({} : Counter).total.toNat = 0 := rfl
  have htotal : (Counter.add {} amount).total.toNat = amount := by
    rw [toNat_total_add (by omega), hzero, Nat.zero_add]
  rw [Counter.value, htotal]

/-- **What lines say of one run**: how many lines it read, wrote and left out, what ended it if it
was a line or a stream, and that it was one run. They say nothing else, and nothing of another
name. -/
structure Reports (lines : List Line) (observation : Observation) : Prop where
  /-- All lines have the name of the transformation. -/
  label : ∀ s, .sample s ∈ lines → s.label = observation.stats.transform
  /-- They are those of the five counters and of the durations. -/
  name : ∀ s, .sample s ∈ lines → (∃ tally : Tally, s.name = tally.name) ∨
    utf8 "codeclean_run_duration_seconds" <+: s.name
  /-- The lines that were read. -/
  linesRead : values (utf8 "codeclean_lines_read_total") lines
    = [(observation.stats.transform, some (Counter.add {} observation.stats.linesRead).value)]
  /-- The lines that were written. -/
  linesWritten : values (utf8 "codeclean_lines_written_total") lines
    = [(observation.stats.transform, some (Counter.add {} observation.stats.linesWritten).value)]
  /-- The lines that were left out. -/
  linesSkipped : values (utf8 "codeclean_lines_skipped_total") lines
    = [(observation.stats.transform, some (Counter.add {} observation.stats.linesSkipped).value)]
  /-- One run that a line ended, if it did. -/
  parseErrors : values (utf8 "codeclean_parse_errors_total") lines
    = if observation.endedByLine then [(observation.stats.transform, some (Binary64.ofInt 1))]
      else []
  /-- One run that a stream ended, if it did. -/
  ioErrors : values (utf8 "codeclean_io_errors_total") lines
    = if observation.endedByStream then [(observation.stats.transform, some (Binary64.ofInt 1))]
      else []
  /-- One run. -/
  runs : values (utf8 "codeclean_run_duration_seconds_count") lines
    = [(observation.stats.transform, some (Binary64.ofInt 1))]

/-- **The text form of one observation** can be read, and reports it. -/
theorem exposition_observe {observation : Observation} (h : observation.Valid) :
    ∃ lines, read? (({} : Metrics).observe observation.stats observation.failure).1.exposition
        = some lines ∧ Reports lines observation := by
  let metrics := (({} : Metrics).observe observation.stats observation.failure).1
  obtain ⟨-, hseries, hdurations⟩ := series_observe {} h
  have hseries (tally : Tally) : tally.series metrics
      = if tally.takes observation then
          [(observation.stats.transform, Counter.add {} (tally.amount observation))]
        else [] := by
    rw [hseries tally]
    cases tally <;> rfl
  have hdurations : metrics.durations = [(observation.stats.transform,
      Histogram.add {} (Duration.seconds observation.stats.duration))] := hdurations
  have hvalues (tally : Tally) : values tally.name metrics.listing
      = if tally.takes observation then
          [(observation.stats.transform, some (Counter.add {} (tally.amount observation)).value)]
        else [] := by
    rw [values_listing, hseries]
    split_ifs <;> rfl
  have hone : some (Counter.add {} (1 : Nat)).value = some (Binary64.ofInt 1) :=
    congrArg some (value_add (by decide))
  refine ⟨metrics.listing, metrics.read?_exposition, ?_, ?_, ?_, ?_, ?_, ?_, ?_, ?_⟩
  · intro s hs
    rcases mem_listing hs with ⟨tally, -, entry, hentry, hlabel⟩ | ⟨-, entry, hentry, hlabel⟩
    · rw [hseries] at hentry
      split_ifs at hentry
      · rw [← hlabel, List.mem_singleton.mp hentry]
      · cases hentry
    · rw [hdurations] at hentry
      rw [← hlabel, List.mem_singleton.mp hentry]
  · intro s hs
    exact (mem_listing hs).imp (fun ⟨tally, hname, _⟩ => ⟨tally, hname⟩) And.left
  · rw [← Int.toNat_of_nonneg h.linesRead]
    exact hvalues .read
  · rw [← Int.toNat_of_nonneg h.linesWritten]
    exact hvalues .written
  · rw [← Int.toNat_of_nonneg h.linesSkipped]
    exact hvalues .skipped
  · refine (hvalues .parseErrors).trans ?_
    rw [Tally.takes]
    split_ifs with hline
    · rw [Tally.amount_parseErrors, if_pos hline, hone]
    · rfl
  · refine (hvalues .ioErrors).trans ?_
    rw [Tally.takes]
    split_ifs with hstream
    · rw [Tally.amount_ioErrors, if_pos hstream, hone]
    · rfl
  · have hruns : number? (Bytes.ofNat 1) = some (Binary64.ofInt 1) := by decide
    rw [values_listing_runs, hdurations, ← hruns]
    rfl

end Metrics

end Linewise

import PqcUtils.Library.Xml
import PqcUtils.Scan.Report.Listing

/-!
# The XML report

The writer lays out its elements line by line. What it puts between tags it escapes by
five replacements of the whole string; the ampersand comes first, so that none of the
others is escaped twice.
-/

namespace PqcUtils.Scan

open Text Xml

/-! ## The writer -/

def xmlEscape (value : String) : String :=
  replaceChar '\'' "&apos;" <| replaceChar '"' "&quot;" <| replaceChar '>' "&gt;" <|
    replaceChar '<' "&lt;" <| replaceChar '&' "&amp;" value

/-- `{:indent$}` of the empty string. -/
def indentation (indent : Nat) : String := .ofList (List.replicate indent ' ')

def writeXmlTextElement (indent : Nat) (name value : String) : String :=
  indentation indent ++ "<" ++ name ++ ">" ++ xmlEscape value ++ "</" ++ name ++ ">\n"

def writeXmlAlgorithmList (indent : Nat) (name : String) (algorithms : Option (List String)) :
    String :=
  indentation indent ++ "<" ++ name ++ ">\n" ++
  (match algorithms with
    | some algorithms =>
      String.join (algorithms.map (writeXmlTextElement (indent + 2) "algorithm"))
    | none => "") ++
  indentation indent ++ "</" ++ name ++ ">\n"

def writeXmlResult (scanType : String) (targetspec : Target) (addr error : Option String)
    (pqcSupported : Bool) (pqcAlgos hybridAlgos nonpqcAlgos : Option (List String)) : String :=
  "    <result scan_type=\"" ++ scanType ++ "\">\n" ++
  writeXmlTextElement 6 "host" targetspec.host ++
  writeXmlTextElement 6 "port" (toString targetspec.port.toNat) ++
  writeXmlTextElement 6 "address" (addr.getD "") ++
  writeXmlTextElement 6 "status" (status error) ++
  writeXmlTextElement 6 "pqc_supported" (toString pqcSupported) ++
  writeXmlAlgorithmList 6 "pqc_algorithms" pqcAlgos ++
  writeXmlAlgorithmList 6 "hybrid_algorithms" hybridAlgos ++
  writeXmlAlgorithmList 6 "non_pqc_algorithms" nonpqcAlgos ++
  writeXmlTextElement 6 "error" (error.getD "") ++
  "    </result>\n"

def writeXmlSshResult : ScanResult → String
  | .ssh targetspec addr error pqcSupported pqcAlgos nonpqcAlgos =>
    writeXmlResult "ssh" targetspec addr error pqcSupported pqcAlgos none nonpqcAlgos
  | _ => ""

def writeXmlTlsResult : ScanResult → String
  | .tls targetspec addr error pqcSupported pqcAlgos hybridAlgos nonpqcAlgos =>
    writeXmlResult "tls" targetspec addr error pqcSupported pqcAlgos hybridAlgos nonpqcAlgos
  | _ => ""

def scanTypeName : ScanType → String
  | .ssh => "ssh"
  | .tls => "tls"

def writeXmlCounts (name : String) (total success failed pqcSupported : Nat) : String :=
  "    <" ++ name ++ " total=\"" ++ toString total ++ "\" success=\"" ++ toString success ++
    "\" failed=\"" ++ toString failed ++ "\" pqc_supported=\"" ++ toString pqcSupported ++ "\" />\n"

def writeXmlWindow (window : ScanWindow) : String :=
  "    <scan_window type=\"" ++ scanTypeName window.scanType ++ "\" start_time=\"" ++
    xmlEscape window.startTime ++ "\" end_time=\"" ++ xmlEscape window.endTime ++ "\" />\n"

/-- What is written to a sink that never fails. -/
def writeXmlReport (results : ReportResults) : Bytes :=
  toUtf8 <|
    "<?xml version=\"1.0\" encoding=\"UTF-8\"?>" ++
    "\n<pqcscan_report>\n" ++
    "  <summary>\n" ++
    writeXmlCounts "ssh" results.sshTotalCount results.sshSuccessCount results.sshFailCount
      results.sshPqcSupportedCount ++
    writeXmlCounts "tls" results.tlsTotalCount results.tlsSuccessCount results.tlsFailCount
      results.tlsPqcSupportedCount ++
    "  </summary>\n" ++
    "  <scan_windows>\n" ++
    String.join (results.scanWindows.map writeXmlWindow) ++
    "  </scan_windows>\n" ++
    "  <results>\n" ++
    writeResults results.sshSortedHosts results.sshResults writeXmlSshResult ++
    writeResults results.tlsSortedHosts results.tlsResults writeXmlTlsResult ++
    "  </results>\n" ++
    "</pqcscan_report>\n"

/-! ## Reading a report -/

def only (name : String) (nodes : List Node) : Option (List Node) :=
  match elements name nodes with
  | [(_, content)] => some content
  | _ => none

def readText (name : String) (nodes : List Node) : Option String := (only name nodes).bind textOf

def readAlgorithms (name : String) (nodes : List Node) : Option (List String) := do
  let content ← only name nodes
  (elements "algorithm" content).mapM fun (_, text) => textOf text

def readResult (attributes : List (String × String)) (nodes : List Node) : Option Entry := do
  let scanType ← attributes.lookup "scan_type"
  let host ← readText "host" nodes
  let port ← readText "port" nodes
  let address ← readText "address" nodes
  let status ← readText "status" nodes
  let pqcSupported ← readText "pqc_supported" nodes
  let pqcAlgorithms ← readAlgorithms "pqc_algorithms" nodes
  let hybridAlgorithms ← readAlgorithms "hybrid_algorithms" nodes
  let nonPqcAlgorithms ← readAlgorithms "non_pqc_algorithms" nodes
  let error ← readText "error" nodes
  pure ⟨scanType, host, port, address, status, pqcSupported, pqcAlgorithms, hybridAlgorithms,
    nonPqcAlgorithms, error⟩

/-- Every `result` element in the only `results` element of the report. -/
def readReport (root : Node) : Option (List Entry) := do
  let report ← only "pqcscan_report" [root]
  let results ← only "results" report
  (elements "result" results).mapM fun (attributes, nodes) => readResult attributes nodes

/-! ## The escape -/

/-- The five replacements do what one pass over the characters does. -/
theorem toList_xmlEscape (value : String) : (xmlEscape value).toList = escape value.toList := by
  simp only [xmlEscape, toList_replaceChar, List.flatMap_assoc]
  apply List.flatMap_congr
  intro c _
  rw [escapeChar]
  split_ifs with amp lt gt quot apos
  · subst amp; rfl
  · subst lt; rfl
  · subst gt; rfl
  · subst quot; rfl
  · subst apos; rfl
  · simp only [lt, gt, quot, apos, if_false, List.flatMap_cons, List.flatMap_nil, List.append_nil]

/-! ## Lines -/

def line (indent : Nat) (node : Node) : List Node :=
  List.replicate indent (.text ' ') ++ [node, .text '\n']

def textElement (name value : String) : Node := .element name [] (value.toList.map .text)

def blockContent (indent : Nat) (nodes : List Node) : List Node :=
  .text '\n' :: nodes ++ List.replicate indent (.text ' ')

def block (indent : Nat) (name : String) (attributes : List (String × String))
    (nodes : List Node) : Node :=
  .element name (normalized attributes) (blockContent indent nodes)

def blockText (indent : Nat) (name : String) (attributes : List (String × String))
    (inner : List Char) : List Char :=
  (indentation indent).toList ++ openTag name attributes ++ ('\n' :: inner ++
    (indentation indent).toList) ++ closeTag name ++ ['\n']

theorem elements_spaces (name : String) (indent : Nat) :
    elements name (List.replicate indent (.text ' ')) = [] := by
  rw [← List.map_replicate]
  exact elements_map_text name _

theorem elements_line (name : String) (indent : Nat) (node : Node) :
    elements name (line indent node) = elements name [node] := by
  rw [line, elements_append, elements_spaces, List.nil_append]
  cases node with
  | text c => rfl
  | element other attributes content => simp

theorem elements_blockContent (name : String) (indent : Nat) (nodes : List Node) :
    elements name (blockContent indent nodes) = elements name nodes := by
  rw [blockContent, List.cons_append, elements_text, elements_append, elements_spaces,
    List.append_nil]

theorem reads_spaces (indent : Nat) :
    Reads (indentation indent).toList (List.replicate indent (.text ' ')) := by
  have plain : ∀ c ∈ List.replicate indent ' ', Plain c := by
    intro c membership
    rw [List.eq_of_mem_replicate membership]
    decide
  have reads := reads_plain plain
  rwa [List.map_replicate, ← String.toList_ofList (l := List.replicate indent ' ')] at reads

theorem reads_lineFeed : Reads ['\n'] [.text '\n'] := reads_plain (plain_of_all rfl)

theorem reads_line {text : List Char} {node : Node} (reads : Reads text [node]) (indent : Nat) :
    Reads ((indentation indent).toList ++ text ++ ['\n']) (line indent node) := by
  have all := ((reads_spaces indent).append reads).append reads_lineFeed
  rwa [List.append_assoc (List.replicate _ _)] at all

theorem reads_textElement (name : String) {value : String} (valid : isName name = true)
    (allowed : ∀ c ∈ value.toList, Allowed c) (indent : Nat) :
    Reads (writeXmlTextElement indent name value).toList
      (line indent (textElement name value)) := by
  have element := Reads.element valid .nil (reads_escape allowed)
  have text : (writeXmlTextElement indent name value).toList = (indentation indent).toList ++
      (openTag name [] ++ escape value.toList ++ closeTag name) ++ ['\n'] := by
    simp [writeXmlTextElement, openTag, closeTag, toList_xmlEscape]
  rw [text]
  exact reads_line element indent

theorem reads_block (name : String) (valid : isName name = true)
    {attributes : List (String × String)} (validAttributes : ValidAttributes attributes)
    {inner : List Char} {nodes : List Node} (reads : Reads inner nodes) (indent : Nat) :
    Reads (blockText indent name attributes inner)
      (line indent (block indent name attributes nodes)) := by
  have content := (reads_lineFeed.append reads).append (reads_spaces indent)
  have element := Reads.element valid validAttributes content
  have text : blockText indent name attributes inner = (indentation indent).toList ++
      (openTag name attributes ++ (['\n'] ++ inner ++ (indentation indent).toList) ++
        closeTag name) ++ ['\n'] := by
    simp [blockText]
  rw [text]
  exact reads_line element indent

/-! ## Entries -/

def AllowedText (text : String) : Prop := ∀ c ∈ text.toList, Allowed c

instance (text : String) : Decidable (AllowedText text) :=
  List.decidableBAll Allowed text.toList

theorem allowed_of_plain {text : String} (plain : ∀ c ∈ text.toList, Plain c) : AllowedText text :=
  fun c membership => (plain c membership).1

def algorithmList (name : String) (algorithms : List String) : Node :=
  block 6 name [] (algorithms.flatMap fun algorithm => line 8 (textElement "algorithm" algorithm))

theorem reads_algorithmList (name : String) (algorithms : Option (List String))
    (valid : isName name = true)
    (allowed : ∀ algorithm ∈ algorithms.getD [], AllowedText algorithm) :
    Reads (writeXmlAlgorithmList 6 name algorithms).toList
      (line 6 (algorithmList name (algorithms.getD []))) := by
  have lines : Reads
      ((algorithms.getD []).flatMap fun value => (writeXmlTextElement 8 "algorithm" value).toList)
      ((algorithms.getD []).flatMap fun value => line 8 (textElement "algorithm" value)) :=
    Reads.flatMap fun value membership =>
      reads_textElement "algorithm" (by decide) (allowed value membership) 8
  have text : (writeXmlAlgorithmList 6 name algorithms).toList = blockText 6 name []
      ((algorithms.getD []).flatMap fun value =>
        (writeXmlTextElement 8 "algorithm" value).toList) := by
    cases algorithms <;>
      simp [writeXmlAlgorithmList, blockText, openTag, closeTag, String.toList_join,
        List.flatMap_map]
  rw [text]
  exact reads_block name valid .nil lines 6

def Entry.children (entry : Entry) : List Node :=
  [textElement "host" entry.host, textElement "port" entry.port,
    textElement "address" entry.address, textElement "status" entry.status,
    textElement "pqc_supported" entry.pqcSupported,
    algorithmList "pqc_algorithms" entry.pqcAlgorithms,
    algorithmList "hybrid_algorithms" entry.hybridAlgorithms,
    algorithmList "non_pqc_algorithms" entry.nonPqcAlgorithms, textElement "error" entry.error]

def Entry.node (entry : Entry) : Node :=
  block 4 "result" [("scan_type", entry.scanType)] (entry.children.flatMap (line 6))

theorem elements_lines (name : String) (indent : Nat) (nodes : List Node) :
    elements name (nodes.flatMap (line indent)) = elements name nodes := by
  induction nodes with
  | nil => rfl
  | cons node nodes ih =>
    rw [List.flatMap_cons, elements_append, elements_line, ih, ← elements_append]
    rfl

theorem elements_block (name other : String) (indent : Nat) (attributes : List (String × String))
    (nodes : List Node) : elements name [block indent other attributes nodes] =
      if other = name then
        [(normalized attributes, blockContent indent nodes)]
      else [] := by
  rw [block, elements_element, elements_nil]

theorem only_of_block {name : String} {indent : Nat} {attributes : List (String × String)}
    {content nodes : List Node}
    (found : elements name nodes = elements name [block indent name attributes content]) :
    only name nodes = some (blockContent indent content) := by
  rw [only, found, elements_block, if_pos rfl]

theorem mapM_map_eq_some {α β : Type*} (read : α → Option β) (write : β → α) {values : List β}
    (inverse : ∀ value ∈ values, read (write value) = some value) :
    (values.map write).mapM read = some values := by
  induction values with
  | nil => rfl
  | cons value values ih =>
    obtain ⟨here, later⟩ := List.forall_mem_cons.mp inverse
    simp [here, ih later]

theorem readText_textElement (name value : String) {nodes : List Node}
    (found : elements name nodes = [([], value.toList.map .text)]) :
    readText name nodes = some value := by
  rw [readText, only, found]
  exact textOf_map_text value

theorem readAlgorithms_algorithmList (name : String) (algorithms : List String) {nodes : List Node}
    (found : elements name nodes = elements name [algorithmList name algorithms]) :
    readAlgorithms name nodes = some algorithms := by
  have inside : elements "algorithm" (algorithms.flatMap fun algorithm =>
      line 8 (textElement "algorithm" algorithm)) =
      algorithms.map fun algorithm => ([], algorithm.toList.map .text) := by
    rw [elements_flatMap, ← List.flatMap_singleton' (algorithms.map _), List.flatMap_map]
    apply List.flatMap_congr
    intro algorithm _
    rw [elements_line, textElement, elements_element, if_pos rfl, elements_nil]
  rw [readAlgorithms, only_of_block found]
  simp only [Option.bind_eq_bind, Option.bind_some, elements_blockContent, inside]
  let write (algorithm : String) : List (String × String) × List Node :=
    ([], algorithm.toList.map .text)
  have inverse (algorithm : String) : textOf (write algorithm).2 = some algorithm :=
    textOf_map_text algorithm
  exact mapM_map_eq_some (fun element => textOf element.2) write fun algorithm _ =>
    inverse algorithm

/-- The writer's own strings are plain. -/
structure Entry.Valid (entry : Entry) : Prop where
  typed : entry.scanType = "ssh" ∨ entry.scanType = "tls"
  host : AllowedText entry.host
  port : AllowedText entry.port
  address : AllowedText entry.address
  status : AllowedText entry.status
  pqcSupported : AllowedText entry.pqcSupported
  pqcAlgorithms : ∀ algorithm ∈ entry.pqcAlgorithms, AllowedText algorithm
  hybridAlgorithms : ∀ algorithm ∈ entry.hybridAlgorithms, AllowedText algorithm
  nonPqcAlgorithms : ∀ algorithm ∈ entry.nonPqcAlgorithms, AllowedText algorithm
  error : AllowedText entry.error

theorem readResult_nodes {entry : Entry} (valid : entry.Valid) :
    readResult (normalized [("scan_type", entry.scanType)])
      (blockContent 4 (entry.children.flatMap (line 6))) = some entry := by
  have typed : (normalized [("scan_type", entry.scanType)]).lookup "scan_type" =
      some entry.scanType := by
    obtain ssh | tls := valid.typed
    · rw [ssh]; rfl
    · rw [tls]; rfl
  have found (name : String) :
      elements name (blockContent 4 (entry.children.flatMap (line 6))) =
        elements name entry.children := by
    rw [elements_blockContent, elements_lines]
  have text (name value : String) (single : elements name entry.children =
      elements name [textElement name value]) :
      readText name (blockContent 4 (entry.children.flatMap (line 6))) = some value := by
    apply readText_textElement
    rw [found, single, textElement, elements_element, if_pos rfl, elements_nil]
  have list (name : String) (algorithms : List String) (single : elements name entry.children =
      elements name [algorithmList name algorithms]) :
      readAlgorithms name (blockContent 4 (entry.children.flatMap (line 6))) =
        some algorithms :=
    readAlgorithms_algorithmList name algorithms ((found name).trans single)
  rw [readResult, typed, text "host" entry.host rfl, text "port" entry.port rfl,
    text "address" entry.address rfl, text "status" entry.status rfl,
    text "pqc_supported" entry.pqcSupported rfl,
    list "pqc_algorithms" entry.pqcAlgorithms rfl,
    list "hybrid_algorithms" entry.hybridAlgorithms rfl,
    list "non_pqc_algorithms" entry.nonPqcAlgorithms rfl, text "error" entry.error rfl]
  rfl

def Entry.lines (entry : Entry) : String :=
  writeXmlTextElement 6 "host" entry.host ++
  writeXmlTextElement 6 "port" entry.port ++
  writeXmlTextElement 6 "address" entry.address ++
  writeXmlTextElement 6 "status" entry.status ++
  writeXmlTextElement 6 "pqc_supported" entry.pqcSupported ++
  writeXmlAlgorithmList 6 "pqc_algorithms" (some entry.pqcAlgorithms) ++
  writeXmlAlgorithmList 6 "hybrid_algorithms" (some entry.hybridAlgorithms) ++
  writeXmlAlgorithmList 6 "non_pqc_algorithms" (some entry.nonPqcAlgorithms) ++
  writeXmlTextElement 6 "error" entry.error

def resultText (scanType lines : String) : String :=
  "    <result scan_type=\"" ++ scanType ++ "\">\n" ++ lines ++ "    </result>\n"

theorem toList_resultText {scanType : String} (plain : ∀ c ∈ scanType.toList, Plain c)
    (lines : String) : (resultText scanType lines).toList =
      blockText 4 "result" [("scan_type", scanType)] lines.toList := by
  unfold resultText
  simp [blockText, openTag, closeTag, attributeText, escape_of_plain plain, indentation]

def writeXmlEntry (entry : Entry) : String := resultText entry.scanType entry.lines

theorem reads_lines {entry : Entry} (valid : entry.Valid) :
    Reads entry.lines.toList (entry.children.flatMap (line 6)) := by
  have texts := (reads_textElement "host" (by decide) valid.host 6).append <|
    (reads_textElement "port" (by decide) valid.port 6).append <|
    (reads_textElement "address" (by decide) valid.address 6).append <|
    (reads_textElement "status" (by decide) valid.status 6).append
    (reads_textElement "pqc_supported" (by decide) valid.pqcSupported 6)
  have lists :=
    (reads_algorithmList "pqc_algorithms" (some _) (by decide) valid.pqcAlgorithms).append <|
    (reads_algorithmList "hybrid_algorithms" (some _) (by decide) valid.hybridAlgorithms).append
    (reads_algorithmList "non_pqc_algorithms" (some _) (by decide) valid.nonPqcAlgorithms)
  have error := reads_textElement "error" (by decide) valid.error 6
  simpa [Entry.lines, Entry.children] using (texts.append lists).append error

theorem reads_writeXmlEntry {entry : Entry} (valid : entry.Valid) :
    Reads (writeXmlEntry entry).toList (line 4 entry.node) := by
  have plain : ∀ c ∈ entry.scanType.toList, Plain c := by
    obtain ssh | tls := valid.typed
    · rw [ssh]; exact plain_of_all rfl
    · rw [tls]; exact plain_of_all rfl
  have attributes : ValidAttributes [("scan_type", entry.scanType)] :=
    .cons (by decide) (allowed_of_plain plain) (by simp) .nil
  rw [writeXmlEntry, toList_resultText plain]
  exact reads_block "result" (by decide) attributes (reads_lines valid) 4

theorem writeXmlAlgorithmList_getD (indent : Nat) (name : String)
    (algorithms : Option (List String)) :
    writeXmlAlgorithmList indent name (some (algorithms.getD [])) =
      writeXmlAlgorithmList indent name algorithms := by
  cases algorithms with
  | none => rfl
  | some algorithms => rfl

theorem writeXmlResult_eq (scanType : String) (targetspec : Target) (addr error : Option String)
    (pqcSupported : Bool) (pqcAlgos hybridAlgos nonpqcAlgos : Option (List String)) :
    writeXmlResult scanType targetspec addr error pqcSupported pqcAlgos hybridAlgos nonpqcAlgos =
      writeXmlEntry ⟨scanType, targetspec.host, toString targetspec.port.toNat, addr.getD "",
        status error, toString pqcSupported, pqcAlgos.getD [], hybridAlgos.getD [],
        nonpqcAlgos.getD [], error.getD ""⟩ := by
  unfold writeXmlResult writeXmlEntry resultText Entry.lines
  simp only [writeXmlAlgorithmList_getD, String.append_assoc]

theorem writeXmlSshResult_eq {result : ScanResult} {entry : Entry}
    (typed : result.scanType = some .ssh) (shown : result.entry = some entry) :
    writeXmlSshResult result = writeXmlEntry entry := by
  cases result with
  | ssh =>
    cases shown
    exact writeXmlResult_eq ..
  | tls => cases typed
  | done => cases typed

theorem writeXmlTlsResult_eq {result : ScanResult} {entry : Entry}
    (typed : result.scanType = some .tls) (shown : result.entry = some entry) :
    writeXmlTlsResult result = writeXmlEntry entry := by
  cases result with
  | ssh => cases typed
  | tls =>
    cases shown
    exact writeXmlResult_eq ..
  | done => cases typed

/-! ## Allowed strings -/

theorem plain_toString (n : Nat) : ∀ c ∈ (toString n).toList, Plain c := by
  intro c membership
  have digit : c.isDigit = true := by
    simp only [Nat.toString_eq_repr, Nat.toList_repr] at membership
    exact Nat.isDigit_of_mem_toDigits (by decide) (by decide) membership
  refine plain_of_not_escaped ?_ ?_
  · simp only [Char.isDigit, Bool.and_eq_true, decide_eq_true_eq, UInt32.le_iff_toNat_le] at digit
    have low : 48 ≤ c.toNat := digit.1
    have high : c.toNat ≤ 57 := digit.2
    exact .inr (.inr (.inl ⟨by omega, by omega⟩))
  · refine ⟨?_, ?_, ?_, ?_, ?_⟩ <;> rintro rfl <;> cases digit

def ScanResult.strings : ScanResult → List String
  | .ssh targetspec addr error _ pqcAlgos nonpqcAlgos =>
    targetspec.host :: addr.toList ++ error.toList ++ pqcAlgos.getD [] ++ nonpqcAlgos.getD []
  | .tls targetspec addr error _ pqcAlgos hybridAlgos nonpqcAlgos =>
    targetspec.host :: addr.toList ++ error.toList ++ pqcAlgos.getD [] ++ hybridAlgos.getD [] ++
      nonpqcAlgos.getD []
  | .done => []

theorem allowed_getD {text : Option String} (allowed : ∀ value ∈ text.toList, AllowedText value) :
    AllowedText (text.getD "") := by
  cases text with
  | none => simp [AllowedText]
  | some value => exact allowed value (by simp)

theorem allowed_status (error : Option String) : AllowedText (status error) := by
  have texts : AllowedText "success" ∧ AllowedText "error" := by decide
  cases error with
  | none => exact texts.1
  | some error => exact texts.2

theorem allowed_bool (flag : Bool) : AllowedText (toString flag) := by
  cases flag <;> decide

theorem valid_of_texts {scanType : String} (typed : scanType = "ssh" ∨ scanType = "tls")
    {targetspec : Target} (host : AllowedText targetspec.host) {addr error : Option String}
    (address : ∀ text ∈ addr.toList, AllowedText text)
    (errorText : ∀ text ∈ error.toList, AllowedText text) (pqcSupported : Bool)
    {pqc hybrid nonpqc : List String} (pqcTexts : ∀ text ∈ pqc, AllowedText text)
    (hybridTexts : ∀ text ∈ hybrid, AllowedText text)
    (nonpqcTexts : ∀ text ∈ nonpqc, AllowedText text) :
    Entry.Valid ⟨scanType, targetspec.host, toString targetspec.port.toNat, addr.getD "",
      status error, toString pqcSupported, pqc, hybrid, nonpqc, error.getD ""⟩ where
  typed := typed
  host := host
  port := allowed_of_plain (plain_toString _)
  address := allowed_getD address
  status := allowed_status error
  pqcSupported := allowed_bool pqcSupported
  pqcAlgorithms := pqcTexts
  hybridAlgorithms := hybridTexts
  nonPqcAlgorithms := nonpqcTexts
  error := allowed_getD errorText

theorem valid_of_strings {result : ScanResult} {entry : Entry} (shown : result.entry = some entry)
    (allowed : ∀ text ∈ result.strings, AllowedText text) : entry.Valid := by
  cases result with
  | ssh targetspec addr error pqcSupported pqcAlgos nonpqcAlgos =>
    cases shown
    simp only [ScanResult.strings, List.cons_append, List.forall_mem_cons,
      List.forall_mem_append] at allowed
    obtain ⟨host, ⟨⟨address, errorText⟩, pqc⟩, nonpqc⟩ := allowed
    exact valid_of_texts (.inl rfl) host address errorText pqcSupported pqc (by simp) nonpqc
  | tls targetspec addr error pqcSupported pqcAlgos hybridAlgos nonpqcAlgos =>
    cases shown
    simp only [ScanResult.strings, List.cons_append, List.forall_mem_cons,
      List.forall_mem_append] at allowed
    obtain ⟨host, ⟨⟨⟨address, errorText⟩, pqc⟩, hybrid⟩, nonpqc⟩ := allowed
    exact valid_of_texts (.inr rfl) host address errorText pqcSupported pqc hybrid nonpqc
  | done => cases shown

/-- The strings of the report that come from outside hold no other characters than XML allows, and
no carriage returns. -/
structure ReportResults.AllowedStrings (report : ReportResults) : Prop where
  results : ∀ result ∈ report.listed, ∀ text ∈ result.strings, AllowedText text
  windows : ∀ window ∈ report.scanWindows,
    AllowedText window.startTime ∧ AllowedText window.endTime

/-! ## The document -/

def countsNode (name : String) (total success failed pqcSupported : Nat) : Node :=
  .element name (normalized [("total", toString total), ("success", toString success),
    ("failed", toString failed), ("pqc_supported", toString pqcSupported)]) []

theorem reads_writeXmlCounts (name : String) (valid : isName name = true)
    (total success failed pqcSupported : Nat) :
    Reads (writeXmlCounts name total success failed pqcSupported).toList
      (line 4 (countsNode name total success failed pqcSupported)) := by
  have number (n : Nat) : AllowedText (toString n) := allowed_of_plain (plain_toString n)
  have attributes : ValidAttributes [("total", toString total), ("success", toString success),
      ("failed", toString failed), ("pqc_supported", toString pqcSupported)] :=
    .cons (by decide) (number total) (by simp) <|
    .cons (by decide) (number success) (by simp) <|
    .cons (by decide) (number failed) (by simp) <|
    .cons (by decide) (number pqcSupported) (by simp) .nil
  have text : (writeXmlCounts name total success failed pqcSupported).toList =
      (indentation 4).toList ++ emptyTag name [("total", toString total),
        ("success", toString success), ("failed", toString failed),
        ("pqc_supported", toString pqcSupported)] ++ ['\n'] := by
    unfold writeXmlCounts
    simp only [emptyTag, List.flatMap_cons, List.flatMap_nil, attributeText,
      escape_of_plain (plain_toString _)]
    generalize toString total = a, toString success = b, toString failed = c,
      toString pqcSupported = d
    simp [indentation]
  rw [text]
  exact reads_line (Reads.empty valid attributes) 4

def windowNode (window : ScanWindow) : Node :=
  .element "scan_window" (normalized [("type", scanTypeName window.scanType),
    ("start_time", window.startTime), ("end_time", window.endTime)]) []

theorem plain_scanTypeName (scanType : ScanType) :
    ∀ c ∈ (scanTypeName scanType).toList, Plain c := by
  cases scanType <;> exact plain_of_all rfl

theorem reads_writeXmlWindow {window : ScanWindow} (start : AllowedText window.startTime)
    (finish : AllowedText window.endTime) :
    Reads (writeXmlWindow window).toList (line 4 (windowNode window)) := by
  have attributes : ValidAttributes [("type", scanTypeName window.scanType),
      ("start_time", window.startTime), ("end_time", window.endTime)] :=
    .cons (by decide) (allowed_of_plain (plain_scanTypeName _)) (by simp) <|
    .cons (by decide) start (by simp) <|
    .cons (by decide) finish (by simp) .nil
  have text : (writeXmlWindow window).toList =
      (indentation 4).toList ++ emptyTag "scan_window" [("type", scanTypeName window.scanType),
        ("start_time", window.startTime), ("end_time", window.endTime)] ++ ['\n'] := by
    unfold writeXmlWindow
    simp only [emptyTag, List.flatMap_cons, List.flatMap_nil, attributeText,
      escape_of_plain (plain_scanTypeName _), ← toList_xmlEscape]
    generalize xmlEscape window.startTime = start, xmlEscape window.endTime = finish,
      scanTypeName window.scanType = name
    simp [indentation]
  rw [text]
  exact reads_line (Reads.empty (by decide) attributes) 4

def documentText (counts windows results : String) : String :=
  "<?xml version=\"1.0\" encoding=\"UTF-8\"?>" ++ "\n<pqcscan_report>\n" ++ "  <summary>\n" ++
    counts ++ "  </summary>\n" ++ "  <scan_windows>\n" ++ windows ++ "  </scan_windows>\n" ++
    "  <results>\n" ++ results ++ "  </results>\n" ++ "</pqcscan_report>\n"

theorem toList_documentText (counts windows results : String) :
    (documentText counts windows results).toList = declaration ++ '\n' ::
      blockText 0 "pqcscan_report" [] (blockText 2 "summary" [] counts.toList ++
        blockText 2 "scan_windows" [] windows.toList ++
        blockText 2 "results" [] results.toList) := by
  unfold documentText declaration
  simp [blockText, openTag, closeTag, indentation]

def summaryNode (report : ReportResults) : Node :=
  block 2 "summary" [] <|
    line 4 (countsNode "ssh" report.sshTotalCount report.sshSuccessCount report.sshFailCount
      report.sshPqcSupportedCount) ++
    line 4 (countsNode "tls" report.tlsTotalCount report.tlsSuccessCount report.tlsFailCount
      report.tlsPqcSupportedCount)

def windowsNode (windows : List ScanWindow) : Node :=
  block 2 "scan_windows" [] (windows.flatMap fun window => line 4 (windowNode window))

def resultsNode (entries : List Entry) : Node :=
  block 2 "results" [] (entries.flatMap fun entry => line 4 entry.node)

def reportNode (report : ReportResults) (entries : List Entry) : Node :=
  block 0 "pqcscan_report" [] <|
    line 2 (summaryNode report) ++ line 2 (windowsNode report.scanWindows) ++
    line 2 (resultsNode entries)

theorem read_documentText {report : ReportResults} {entries : List Entry} {results : String}
    (windows : ∀ window ∈ report.scanWindows,
      AllowedText window.startTime ∧ AllowedText window.endTime)
    (valid : ∀ entry ∈ entries, entry.Valid)
    (written : results.toList = entries.flatMap fun entry => (writeXmlEntry entry).toList) :
    read (documentText
      (writeXmlCounts "ssh" report.sshTotalCount report.sshSuccessCount report.sshFailCount
          report.sshPqcSupportedCount ++
        writeXmlCounts "tls" report.tlsTotalCount report.tlsSuccessCount report.tlsFailCount
          report.tlsPqcSupportedCount)
      (String.join (report.scanWindows.map writeXmlWindow)) results) =
      some (reportNode report entries) := by
  have readsCounts (ssh tls : String) {sshNodes tlsNodes : List Node}
      (readsSsh : Reads ssh.toList sshNodes) (readsTls : Reads tls.toList tlsNodes) :
      Reads (ssh ++ tls).toList (sshNodes ++ tlsNodes) := by
    rw [String.toList_append]
    exact readsSsh.append readsTls
  have summary := reads_block "summary" (by decide) .nil (readsCounts _ _
    (reads_writeXmlCounts "ssh" (by decide) report.sshTotalCount report.sshSuccessCount
      report.sshFailCount report.sshPqcSupportedCount)
    (reads_writeXmlCounts "tls" (by decide) report.tlsTotalCount report.tlsSuccessCount
      report.tlsFailCount report.tlsPqcSupportedCount)) 2
  have windowLines : Reads (String.join (report.scanWindows.map writeXmlWindow)).toList
      (report.scanWindows.flatMap fun window => line 4 (windowNode window)) := by
    rw [String.toList_join, List.flatMap_map]
    exact Reads.flatMap fun window membership =>
      reads_writeXmlWindow (windows window membership).1 (windows window membership).2
  have resultLines : Reads results.toList (entries.flatMap fun entry => line 4 entry.node) := by
    rw [written]
    exact Reads.flatMap fun entry membership => reads_writeXmlEntry (valid entry membership)
  have all := (summary.append (reads_block "scan_windows" (by decide) .nil windowLines 2)).append
    (reads_block "results" (by decide) .nil resultLines 2)
  have body := reads_lineFeed.append (reads_block "pqcscan_report" (by decide) .nil all 0)
  exact read_of_reads (toList_documentText _ _ _) body rfl

theorem readReport_reportNode (report : ReportResults) {entries : List Entry}
    (valid : ∀ entry ∈ entries, entry.Valid) :
    readReport (reportNode report entries) = some entries := by
  let write (entry : Entry) : List (String × String) × List Node :=
    (normalized [("scan_type", entry.scanType)], blockContent 4 (entry.children.flatMap (line 6)))
  have results : elements "result" (entries.flatMap fun entry => line 4 entry.node) =
      entries.map write := by
    rw [elements_flatMap, ← List.flatMap_singleton' (entries.map write), List.flatMap_map]
    apply List.flatMap_congr
    intro entry _
    rw [elements_line, Entry.node, elements_block, if_pos rfl]
  have inverse : ∀ entry ∈ entries, readResult (write entry).1 (write entry).2 = some entry :=
    fun entry membership => readResult_nodes (valid entry membership)
  have outer : only "pqcscan_report" [reportNode report entries] = some _ := only_of_block rfl
  have found : elements "results" (blockContent 0 (line 2 (summaryNode report) ++
      line 2 (windowsNode report.scanWindows) ++ line 2 (resultsNode entries))) =
      elements "results" [resultsNode entries] := by
    simp only [elements_blockContent, elements_append, elements_line]
    rfl
  rw [readReport, outer, Option.bind_eq_bind, Option.bind_some, only_of_block found,
    Option.bind_some, elements_blockContent, results]
  exact mapM_map_eq_some (fun element => readResult element.1 element.2) write inverse

/-- If its strings are allowed, a report reads back as a document with one result for each result,
and the strings are those of the results. -/
theorem read_writeXmlReport {inputFiles : List (String × InputFile)} {report : ReportResults}
    (created : createReport inputFiles = .ok report) (allowed : report.AllowedStrings) :
    ∃ entries node, report.Shows inputFiles entries ∧
      (fromUtf8 (writeXmlReport report)).bind Xml.read = some node ∧
      readReport node = some entries := by
  obtain ⟨entries, shows⟩ := exists_shows created
  have valid : ∀ entry ∈ entries, entry.Valid := by
    intro entry membership
    have among : some entry ∈ report.listed.map ScanResult.entry :=
      shows.listed ▸ List.mem_map_of_mem membership
    obtain ⟨result, listed, shown⟩ := List.mem_map.mp among
    exact valid_of_strings shown (allowed.results result listed)
  have written := shows.toList_writeResults writeXmlEntry (fun _ _ => writeXmlSshResult_eq)
    fun _ _ => writeXmlTlsResult_eq
  refine ⟨entries, reportNode report entries, shows, ?_, readReport_reportNode report valid⟩
  have document := read_documentText allowed.windows valid written
  unfold writeXmlReport
  unfold documentText at document
  rw [fromUtf8_toUtf8, Option.bind_some, ← document]
  simp only [String.append_assoc]

theorem read_writeXmlReport_twoScans :
    ∃ report entries node, createReport (parsedFiles twoScans) = .ok report ∧
      report.Shows (parsedFiles twoScans) entries ∧
      (fromUtf8 (writeXmlReport report)).bind Xml.read = some node ∧
      readReport node = some entries := by
  obtain ⟨report, created, windows⟩ : ∃ report, createReport (parsedFiles twoScans) = .ok report ∧
      report.scanWindows = [⟨"12:00", "12:01", .ssh⟩, ⟨"12:02", "12:03", .tls⟩] := ⟨_, rfl, rfl⟩
  have strings : ∀ result ∈ allResults twoScans, ∀ text ∈ result.strings, AllowedText text := by
    decide
  have allowed : report.AllowedStrings := by
    refine ⟨fun result membership => strings result ?_, ?_⟩
    · obtain ⟨report', created', aggregates⟩ := exists_createReport usable_twoScans
      rw [created, Outcome.ok.injEq] at created'
      subst created'
      rw [ReportResults.listed, List.mem_append, (listed_perm aggregates .ssh).mem_iff,
        (listed_perm aggregates .tls).mem_iff] at membership
      exact membership.elim (fun ssh => (List.mem_filter.mp ssh).1) fun tls =>
        (List.mem_filter.mp tls).1
    · rw [windows]
      decide
  obtain ⟨entries, node, shows, read, decoded⟩ := read_writeXmlReport created allowed
  exact ⟨report, entries, node, created, shows, read, decoded⟩

end PqcUtils.Scan

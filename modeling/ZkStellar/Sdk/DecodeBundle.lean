import ZkStellar.Sdk.BundleUse

set_option autoImplicit false

/-! # The command `decode-bundle`

The command does not check the bundle it has read. It builds another one from the fields, puts the
digest back and checks that. `createBundle` fills in a timestamp that is missing and trims the name
of the circuit, so its verdict is the library's unless one of the two made a difference. It prints
the path and three fields of the file as they are, and whatever follows a line break in them stands
on a line of its own, as a verdict does (`decode_bundle_agrees_iff`). -/

namespace ZkStellar.Sdk

variable (rt : Runtime) (h : Host)

/-! ## The command -/

/-- The options the command passes to `createBundle`. -/
def optionsOf (raw : JsValue) : CreateBundleOptions where
  proof := raw.get "proof"
  publicSignals := raw.get "publicSignals"
  circuit := raw.get "circuit"
  networkPassphrase := raw.get "networkPassphrase"
  generatedAt := raw.get "generatedAt"

/-- The lines on the file itself. -/
def headerLines (bundlePath circuit generatedAt networkPassphrase protocol : String)
    (signals : List JsValue) : List String :=
  ["command: decode-bundle",
    "file: " ++ bundlePath,
    "",
    "circuit:           " ++ circuit,
    "generatedAt:       " ++ generatedAt,
    "networkPassphrase: " ++ networkPassphrase,
    "proof protocol:    " ++ protocol,
    "public signals:    " ++ toString signals.length]
  ++ formatList 0 signals

/-- The lines with the verdict. -/
def verdictLines (integrity : BundleIntegrityResult) : List String :=
  ["", "calldata encoding: " ++ (if integrity.valid then "ok" else "FAIL")]
    ++ (match integrity.valid, integrity.reason with
      | false, some reason => ["integrity error:   " ++ reason]
      | _, _ => [])

/-- `digest.slice(0, 16)`, in a message. -/
def slicedDigest (digest : JsValue) : Except JsException String :=
  match digest with
  | .string s => .ok (String.ofList (sliceUnits 16 s.toList))
  | .array elems => printed rt (.array (elems.take 16))
  | _ => .error .typeError

/-- The lines on the digest of the file, or on that of the bundle if the file has none. -/
def digestLines (raw bundle : JsValue) (integrity : BundleIntegrityResult) :
    Except JsException (List String) :=
  if (raw.get "digest").falsy then
    let computed := bundleDigest rt h bundle
    .ok ["digest (computed): " ++ String.ofList (sliceUnits 16 computed.toList)
      ++ "… (add \"digest\" field to sign bundle)"]
  else do
    let stored ← slicedDigest rt (raw.get "digest")
    return ["stored digest:     " ++ stored ++ "…",
      "digest valid:      " ++ (if integrity.valid then "yes" else "no")]

/-- `commandDecodeBundle`, from the parsed file on. -/
def commandDecodeBundle (bundlePath : String) (raw : JsValue) :
    Except JsException (List String) := do
  throwIf (match raw with | .undefined | .null => true | _ => false) .typeError
  let bundle ← createBundle rt (optionsOf raw)
  let integrity := verifyBundleIntegrity rt h
    (if (raw.get "digest").falsy then bundle else bundle.set "digest" (raw.get "digest"))
  let circuit ← printed rt (raw.get "circuit")
  let generatedAt ← printed rt (raw.get "generatedAt")
  let networkPassphrase ← printed rt (raw.get "networkPassphrase")
  let protocol ← printed rt ((raw.get "proof").get "protocol")
  let signals ← signalsOf (raw.get "publicSignals")
  let onDigest ← digestLines rt h raw bundle integrity
  return headerLines bundlePath circuit generatedAt networkPassphrase protocol signals
    ++ verdictLines integrity ++ onDigest

/-! ## Lines of a text -/

/-- The lines of a text. -/
def linesOf (text : String) : List String := (text.toList.splitOn '\n').map String.ofList

theorem linesOf_eq_singleton {text : String} (hbreak : '\n' ∉ text.toList) :
    linesOf text = [text] := by
  rw [linesOf, List.splitOn_eq_singleton hbreak, List.map_singleton, String.ofList_toList]

/-- A text that is joined from lines has the lines of these. -/
theorem linesOf_intercalate {lines : List String} (hlines : lines ≠ []) :
    linesOf ("\n".intercalate lines) = lines.flatMap linesOf := by
  induction lines with
  | nil => exact absurd rfl hlines
  | cons line lines ih =>
      cases lines with
      | nil => simp
      | cons next lines =>
          rw [List.flatMap_cons, ← ih (List.cons_ne_nil _ _), String.intercalate_cons_cons]
          simp only [linesOf, String.toList_append, List.append_assoc]
          exact (congrArg _ (List.splitOn_append_cons_self _ _)).trans List.map_append

theorem splitOn_append_of_notMem {a : Char} {xs : List Char} (hxs : a ∉ xs) (ys : List Char) :
    (xs ++ ys).splitOn a = (ys.splitOn a).modifyHead (xs ++ ·) := by
  induction xs with
  | nil => cases hsplit : ys.splitOn a <;> simp [hsplit]
  | cons x xs ih =>
      obtain ⟨hx, hxs⟩ := not_or.1 (fun h => hxs (List.mem_cons.2 h))
      have hne : (x == a) = false := beq_eq_false_iff_ne.2 fun heq => hx heq.symm
      rw [List.cons_append, List.splitOn_cons_eq_if_modifyHead, hne, ih hxs]
      cases ys.splitOn a <;> rfl

/-- A line that does not start like a text is one of its lines only behind a line break. -/
theorem mem_linesOf_append_iff {start line : String} (hbreak : '\n' ∉ start.toList)
    (hline : start.toList.isPrefixOf line.toList = false) (rest : String) :
    line ∈ linesOf (start ++ rest) ↔ line ∈ (linesOf rest).tail := by
  rw [linesOf, linesOf, String.toList_append, splitOn_append_of_notMem hbreak]
  cases rest.toList.splitOn '\n' with
  | nil => rfl
  | cons first others =>
      simp only [List.modifyHead_cons, List.map_cons, List.tail_cons, List.mem_cons,
        or_iff_right_iff_imp]
      rintro rfl
      rw [String.toList_ofList, Bool.eq_false_iff] at hline
      exact absurd (List.isPrefixOf_iff_prefix.2 (List.prefix_append _ _)) hline

/-- A piece of a text that ends in one without line breaks has this end, or is no longer than the
    beginning. -/
theorem mem_splitOn_append {a : Char} {xs ys piece : List Char} (hys : a ∉ ys)
    (hpiece : piece ∈ (xs ++ ys).splitOn a) :
    (∃ front, piece = front ++ ys) ∨ piece.length ≤ xs.length := by
  induction xs generalizing piece with
  | nil =>
      rw [List.nil_append, List.splitOn_eq_singleton hys, List.mem_singleton] at hpiece
      exact .inl ⟨[], hpiece⟩
  | cons x xs ih =>
      rw [List.cons_append, List.splitOn_cons_eq_if_modifyHead] at hpiece
      split at hpiece
      · rcases List.mem_cons.1 hpiece with rfl | hmem
        · exact .inr (Nat.zero_le _)
        · exact (ih hmem).imp_right fun hlen => hlen.trans (Nat.le_succ _)
      · cases hsplit : (xs ++ ys).splitOn a with
        | nil => exact absurd hsplit (List.splitOn_ne_nil a _)
        | cons first others =>
            rw [hsplit] at ih hpiece
            rcases List.mem_cons.1 hpiece with rfl | hmem
            · rcases ih List.mem_cons_self with ⟨front, hfront⟩ | hlen
              · exact .inl ⟨x :: front, by rw [hfront]; rfl⟩
              · exact .inr (Nat.succ_le_succ hlen)
            · exact (ih (List.mem_cons_of_mem _ hmem)).imp_right fun hlen =>
                hlen.trans (Nat.le_succ _)

theorem length_sliceUnits_le (n : ℕ) (cs : List Char) : (sliceUnits n cs).length ≤ n := by
  induction cs generalizing n with
  | nil => cases n <;> simp [sliceUnits]
  | cons c cs ih =>
      match n with
      | 0 => simp [sliceUnits]
      | 1 =>
          rw [sliceUnits]
          split <;> simp
      | n + 2 =>
          have hhigh := ih (n + 1)
          have hlow := ih n
          rw [sliceUnits, List.length_cons]
          split <;> omega

theorem mem_of_mem_sliceUnits {c : Char} {n : ℕ} {cs : List Char} (hc : c ∈ sliceUnits n cs) :
    c ∈ cs ∨ c = '\uFFFD' := by
  induction cs generalizing n with
  | nil => cases n <;> simp [sliceUnits] at hc
  | cons c' cs ih =>
      match n with
      | 0 => simp [sliceUnits] at hc
      | 1 =>
          rw [sliceUnits] at hc
          split at hc
          · exact .inl (List.mem_cons.2 (.inl (List.mem_singleton.1 hc)))
          · exact .inr (List.mem_singleton.1 hc)
      | n + 2 =>
          rw [sliceUnits] at hc
          rcases List.mem_cons.1 hc with rfl | hmem
          · exact .inl List.mem_cons_self
          · exact (ih hmem).imp_left (List.mem_cons_of_mem _)

/-! ## Lines of the report -/

/-- The two lines that speak for the bundle. -/
def goodLines : List String := ["digest valid:      yes", "calldata encoding: ok"]

/-- The beginning of a line that is no good line. -/
def Label (label : String) : Prop :=
  '\n' ∉ label.toList ∧ ∀ line ∈ goodLines, label.toList.isPrefixOf line.toList = false

instance (label : String) : Decidable (Label label) :=
  inferInstanceAs (Decidable (_ ∧ _))

section

variable {line label rest : String} (hline : line ∈ goodLines) (hlabel : Label label)

include hline

/-- The first 16 characters of a text have no room for a good line. -/
theorem notMem_linesOf_slice (cs : List Char) (hbreak : '\n' ∉ rest.toList)
    (hmark : '…' ∈ rest.toList) : line ∉ linesOf (String.ofList (sliceUnits 16 cs) ++ rest) := by
  have hlong : ∀ line ∈ goodLines, 16 < line.toList.length ∧ '…' ∉ line.toList := by decide
  rw [linesOf, String.toList_append, String.toList_ofList]
  intro hmem
  obtain ⟨piece, hpiece, rfl⟩ := List.mem_map.1 hmem
  obtain ⟨hlength, hnomark⟩ := hlong _ hline
  rw [String.toList_ofList] at hlength hnomark
  rcases mem_splitOn_append hbreak hpiece with ⟨front, rfl⟩ | hshort
  · exact hnomark (List.mem_append_right _ hmark)
  · have hslice := length_sliceUnits_le 16 cs
    omega

include hlabel

/-- Behind a label a good line is only found after a line break. -/
theorem mem_linesOf_label_iff :
    line ∈ linesOf (label ++ rest) ↔ line ∈ (linesOf rest).tail :=
  mem_linesOf_append_iff hlabel.1 (hlabel.2 line hline) rest

theorem notMem_linesOf_label (hrest : '\n' ∉ rest.toList) : line ∉ linesOf (label ++ rest) := by
  rw [mem_linesOf_label_iff hline hlabel, linesOf_eq_singleton hrest]
  exact List.not_mem_nil

end

theorem break_notMem_toDigits (n : ℕ) : '\n' ∉ Nat.toDigits 10 n := fun hmem =>
  absurd (Nat.isDigit_of_mem_toDigits (by decide) (by decide) hmem) (by decide)

theorem notMem_linesOf_formatList {line : String} (hline : line ∈ goodLines)
    {values : List JsValue} (hvalues : ∀ s, JsValue.string s ∈ values → '\n' ∉ s.toList)
    (index : ℕ) : line ∉ (formatList index values).flatMap linesOf := by
  induction values generalizing index with
  | nil => exact List.not_mem_nil
  | cons value values ih =>
      have hrest := ih (fun s hs => hvalues s (List.mem_cons_of_mem _ hs)) (index + 1)
      cases value with
      | string s =>
          rw [formatList, List.flatMap_cons, List.mem_append, not_or, String.append_assoc,
            String.append_assoc]
          refine ⟨notMem_linesOf_label hline (by decide) ?_, hrest⟩
          simp [break_notMem_toDigits, hvalues s List.mem_cons_self]
      | _ => exact hrest

/-- A good line of the report's head stands behind a line break in one of four texts. -/
theorem mem_headerLines_iff {line : String} (hline : line ∈ goodLines)
    (bundlePath circuit generatedAt networkPassphrase : String) {protocol : String}
    (hprotocol : '\n' ∉ protocol.toList) {signals : List JsValue}
    (hsignals : ∀ s, JsValue.string s ∈ signals → '\n' ∉ s.toList) :
    line ∈ (headerLines bundlePath circuit generatedAt networkPassphrase protocol
        signals).flatMap linesOf ↔
      ∃ text ∈ [bundlePath, circuit, generatedAt, networkPassphrase],
        line ∈ (linesOf text).tail := by
  have hcount : '\n' ∉ (toString signals.length).toList := by
    simp [break_notMem_toDigits]
  have hfixed : line ∉ linesOf "command: decode-bundle" ∧ line ∉ linesOf "" := by
    revert line
    decide
  simp only [headerLines, List.flatMap_append, List.flatMap_cons, List.flatMap_nil, List.mem_append,
    mem_linesOf_label_iff hline (by decide : Label "file: "),
    mem_linesOf_label_iff hline (by decide : Label "circuit:           "),
    mem_linesOf_label_iff hline (by decide : Label "generatedAt:       "),
    mem_linesOf_label_iff hline (by decide : Label "networkPassphrase: "),
    notMem_linesOf_label hline (by decide : Label "proof protocol:    ") hprotocol,
    notMem_linesOf_label hline (by decide : Label "public signals:    ") hcount,
    notMem_linesOf_formatList hline hsignals, hfixed, List.not_mem_nil, false_or, or_false,
    List.exists_mem_cons_iff, exists_false, false_and]

/-- The lines on a verdict and a stored digest. -/
def closingLines (integrity : BundleIntegrityResult) (stored : String) : List String :=
  verdictLines integrity ++ ["stored digest:     " ++ stored ++ "…",
    "digest valid:      " ++ (if integrity.valid then "yes" else "no")]

/-- The good lines close the report if the verdict is good. -/
theorem mem_closingLines_iff {line : String} (hline : line ∈ goodLines)
    (integrity : BundleIntegrityResult) (cs : List Char)
    (hreason : ∀ reason, integrity.reason = some reason →
      line ∉ linesOf ("integrity error:   " ++ reason)) :
    line ∈ (closingLines integrity (String.ofList (sliceUnits 16 cs))).flatMap linesOf ↔
      integrity.valid = true := by
  have hstored : line ∉ linesOf
      ("stored digest:     " ++ (String.ofList (sliceUnits 16 cs) ++ "…")) := by
    rw [mem_linesOf_label_iff hline (by decide)]
    intro hmem
    exact notMem_linesOf_slice hline cs (by decide) (by decide) (List.mem_of_mem_tail hmem)
  have hfixed : ∀ line ∈ goodLines, line ∉ linesOf "" ∧ line ∉ linesOf "calldata encoding: FAIL" ∧
      line ∉ linesOf "digest valid:      no" ∧
      (line ∈ linesOf "calldata encoding: ok" ∨ line ∈ linesOf "digest valid:      yes") := by
    decide
  obtain ⟨hempty, hfail, hno, hgood⟩ := hfixed line hline
  cases hvalid : integrity.valid with
  | true =>
      simp only [closingLines, verdictLines, hvalid, if_true, List.append_nil, List.cons_append,
        List.nil_append, List.flatMap_cons, List.flatMap_nil, List.mem_append, iff_true]
      rcases hgood with hmem | hmem
      · exact .inr (.inl hmem)
      · exact .inr (.inr (.inr hmem))
  | false =>
      cases hr : integrity.reason with
      | none => simp [closingLines, verdictLines, hvalid, hr, hempty, hfail, hno, hstored,
          String.append_assoc]
      | some reason => simp [closingLines, verdictLines, hvalid, hr, hempty, hfail, hno, hstored,
          hreason reason hr, String.append_assoc]

/-! ## The verdict -/

/-- The bundle that the command checks. -/
def rebuilt (raw : JsValue) : JsValue := bundleOf rt (optionsOf raw)

/-- The verdict of the command, on the rebuilt bundle with the digest of the file. -/
def commandIntegrity (raw : JsValue) (d : String) : BundleIntegrityResult :=
  verifyBundleIntegrity rt h ((rebuilt rt raw).set "digest" (.string d))

/-- What the command prints on a file with a digest. -/
def reportLines (bundlePath : String) (raw : JsValue) (d : String) (signals : List JsValue) :
    List String :=
  headerLines bundlePath (valueText rt (raw.get "circuit")) (valueText rt (raw.get "generatedAt"))
      (valueText rt (raw.get "networkPassphrase")) "groth16" signals
    ++ closingLines (commandIntegrity rt h raw d) (String.ofList (sliceUnits 16 d.toList))

section

variable {bundlePath d : String} {raw : JsValue} {lines : List String}

theorem printed_eq_ok {v : JsValue} {text : String} (hprinted : printed rt v = .ok text) :
    text = valueText rt v := by
  unfold printed at hprinted
  split at hprinted
  · cases hprinted
  · exact (Except.ok.inj hprinted).symm

theorem commandDecodeBundle_eq_ok (hdigest : raw.get "digest" = .string d) (hd : d ≠ "")
    (hprinted : commandDecodeBundle rt h bundlePath raw = .ok lines) :
    createBundle rt (optionsOf raw) = .ok (rebuilt rt raw) ∧
      ∃ signals, raw.get "publicSignals" = .array signals ∧
        lines = reportLines rt h bundlePath raw d signals := by
  have hfalsy : (JsValue.string d).falsy = false := by simp [JsValue.falsy, hd]
  simp only [commandDecodeBundle, digestLines, hfalsy, hdigest, slicedDigest, bind_eq_ok_iff,
    Bool.false_eq_true, if_false] at hprinted
  obtain ⟨_, -, bundle, hcreate, circuit, hcircuit, generatedAt, hgenerated, networkPassphrase,
    hnetwork, protocol, hprotocol, signals, hsignals, _, ⟨stored, hstored, honDigest⟩,
    hlines⟩ := hprinted
  cases honDigest
  cases hlines
  cases hstored
  obtain ⟨⟨_, -, hwell⟩, -, -, rfl⟩ := (createBundle_eq_ok_iff rt).1 hcreate
  have hgroth : (raw.get "proof").get "protocol" = .string "groth16" := hwell.protocol
  rw [hgroth] at hprotocol
  refine ⟨hcreate, signals, ?_, ?_⟩
  · unfold signalsOf at hsignals
    split at hsignals
    · cases hsignals
      assumption
    · cases hsignals
  · rw [reportLines, commandIntegrity, printed_eq_ok rt hcircuit, printed_eq_ok rt hgenerated,
      printed_eq_ok rt hnetwork, printed_eq_ok rt hprotocol, closingLines, List.append_assoc]
    rfl

theorem printed_of_printable {v : JsValue} (hv : v.unprintable = false) :
    printed rt v = .ok (valueText rt v) := by
  rw [printed, hv]
  rfl

/-- There is a report on a file with a digest that can be rebuilt, if its timestamp can be
    printed. -/
theorem exists_report (hdigest : raw.get "digest" = .string d) (hd : d ≠ "")
    (hcreate : createBundle rt (optionsOf raw) = .ok (rebuilt rt raw))
    (hprintable : (raw.get "generatedAt").unprintable = false) :
    ∃ lines, commandDecodeBundle rt h bundlePath raw = .ok lines := by
  obtain ⟨⟨signals, hsignals, hwell⟩, ⟨circuit, hcircuit, -⟩, ⟨network, hnetwork, -⟩, -⟩ :=
    (createBundle_eq_ok_iff rt).1 hcreate
  have hprotocol : (raw.get "proof").get "protocol" = .string "groth16" := hwell.protocol
  simp only [optionsOf] at hsignals hcircuit hnetwork
  obtain ⟨props, rfl⟩ := exists_object_of_get hdigest
  have hfalsy : (JsValue.string d).falsy = false := by simp [JsValue.falsy, hd]
  have htext : ∀ s, printed rt (.string s) = .ok s := fun s => printed_of_printable rt rfl
  simp only [commandDecodeBundle, digestLines, hdigest, hfalsy, slicedDigest, hcreate, hcircuit,
    hnetwork, hprotocol, hsignals, htext, printed_of_printable rt hprintable]
  exact ⟨_, rfl⟩

theorem break_notMem_of_isDecimalOrHex {s : String} (hs : isDecimalOrHex s = true) :
    '\n' ∉ s.toList := by
  intro hmem
  rcases Bool.or_eq_true_iff.1 hs with hhex | hdecimal
  · unfold isHexadecimal at hhex
    split at hhex
    · next cs hcs =>
        rw [Bool.and_eq_true, List.all_eq_true] at hhex
        rw [hcs, List.mem_cons, List.mem_cons] at hmem
        obtain hzero | hx | hrest := hmem
        · exact absurd hzero (by decide)
        · exact absurd hx (by decide)
        · exact absurd (hhex.2 _ hrest) (by decide)
    · cases hhex
  · rw [isDecimal, Bool.and_eq_true, List.all_eq_true] at hdecimal
    exact absurd (hdecimal.2 _ hmem) (by decide)

theorem break_notMem_hexText (bytes : Bytes) : '\n' ∉ (hexText bytes).toList := by
  have hdigit : ∀ n < 16, '\n' ≠ Nat.digitChar n := by decide
  rw [hexText, String.toList_ofList]
  intro hmem
  obtain ⟨b, -, hb⟩ := List.mem_flatMap.1 hmem
  have hlt := b.toNat_lt
  simp only [hexPair, List.mem_cons, List.not_mem_nil, or_false] at hb
  rcases hb with hhigh | hlow
  · exact hdigit _ (by omega) hhigh
  · exact hdigit _ (by omega) hlow

/-- What the command gives as the reason for a bad verdict. The proof of the rebuilt bundle has
    been checked, so the reason is about a field or the digest. -/
theorem reason_commandIntegrity {reason : String}
    (hcreate : createBundle rt (optionsOf raw) = .ok (rebuilt rt raw))
    (hreason : (commandIntegrity rt h raw d).reason = some reason) :
    (∃ field ∈ ["circuit", "generatedAt", "networkPassphrase"],
      reason = field ++ " is missing or empty") ∨
    ∃ expected, '\n' ∉ expected ∧
      reason = "digest mismatch: stored=" ++ (String.ofList (sliceUnits 16 d.toList)
        ++ ("… expected=" ++ (String.ofList (sliceUnits 16 expected) ++ "…"))) := by
  have hencodes : ∃ calldata, assertEncodes ((rebuilt rt raw).set "digest" (.string d))
      = .ok calldata := by
    rw [assertEncodes_accepts_iff, get_set_of_ne _ (by decide), get_set_of_ne _ (by decide)]
    exact ((createBundle_eq_ok_iff rt).1 hcreate).1
  obtain ⟨calldata, hcalldata⟩ := hencodes
  have hdigest : ((rebuilt rt raw).set "digest" (.string d)).get "digest" = .string d :=
    get_set_self _ _ _
  unfold commandIntegrity verifyBundleIntegrity at hreason
  simp only [hcalldata, hdigest] at hreason
  cases hmissing : missingField ((rebuilt rt raw).set "digest" (.string d)) with
  | some field =>
      rw [hmissing] at hreason
      exact .inl ⟨field, List.mem_of_find?_eq_some hmissing, (Option.some.inj hreason).symm⟩
  | none =>
      rw [hmissing] at hreason
      simp only at hreason
      split at hreason
      · rw [← Option.some.inj hreason]
        refine .inr ⟨(bundleDigest rt h ((rebuilt rt raw).set "digest" (.string d))).toList,
          break_notMem_hexText _, ?_⟩
        simp only [String.append_assoc]
      · cases hreason

/-- No good line is found in the reason. -/
theorem notMem_linesOf_reason {line : String} (hline : line ∈ goodLines)
    (hcreate : createBundle rt (optionsOf raw) = .ok (rebuilt rt raw)) {reason : String}
    (hreason : (commandIntegrity rt h raw d).reason = some reason) :
    line ∉ linesOf ("integrity error:   " ++ reason) := by
  have hfields : ∀ line ∈ goodLines, ∀ field ∈ ["circuit", "generatedAt", "networkPassphrase"],
      line ∉ linesOf ("integrity error:   " ++ (field ++ " is missing or empty")) := by decide
  rcases reason_commandIntegrity rt h hcreate hreason with
    ⟨field, hfield, rfl⟩ | ⟨expected, hexpected, rfl⟩
  · exact hfields line hline field hfield
  · rw [← String.append_assoc, mem_linesOf_label_iff hline (by decide)]
    intro hmem
    refine notMem_linesOf_slice hline _ ?_ ?_ (List.mem_of_mem_tail hmem)
    · have hslice : '\n' ∉ sliceUnits 16 expected := by
        intro hmem
        rcases mem_of_mem_sliceUnits hmem with hin | heq
        · exact hexpected hin
        · exact absurd heq (by decide)
      simp [hslice]
    · simp

/-- The file is valid if its timestamp is in order and its digest is right. -/
theorem valid_raw_iff (hdigest : raw.get "digest" = .string d)
    (hcreate : createBundle rt (optionsOf raw) = .ok (rebuilt rt raw)) :
    (verifyBundleIntegrity rt h raw).valid = true ↔
      IsText (raw.get "generatedAt") ∧ d = bundleDigest rt h raw := by
  obtain ⟨hencodes, hcircuit, hnetwork, -⟩ := (createBundle_eq_ok_iff rt).1 hcreate
  rw [valid_iff, hdigest]
  constructor
  · rintro ⟨hsound, hright⟩
    exact ⟨hsound.generatedAt, hright d rfl⟩
  · rintro ⟨hgenerated, rfl⟩
    refine ⟨⟨hcircuit, hgenerated, hnetwork, hencodes⟩, ?_⟩
    intro d hd
    cases hd
    rfl

/-- The rebuilt bundle is valid if its timestamp is missing or in order and the digest is that of
    the rebuilt bundle. -/
theorem valid_rebuilt_iff (hcreate : createBundle rt (optionsOf raw) = .ok (rebuilt rt raw)) :
    (verifyBundleIntegrity rt h ((rebuilt rt raw).set "digest" (.string d))).valid = true ↔
      (raw.get "generatedAt" = .undefined ∨ raw.get "generatedAt" = .null ∨
        IsText (raw.get "generatedAt")) ∧ d = bundleDigest rt h (rebuilt rt raw) := by
  have hsound := sound_bundleOf_iff rt hcreate
  rw [rebuilt, bundleOf, valid_set_digest_iff]
  exact and_congr_left' hsound

/-- Rebuilding leaves the content alone if the timestamp is there and the name of the circuit is not
    trimmed. -/
theorem bundleContent_rebuilt {c : String} (hgenerated : IsText (raw.get "generatedAt"))
    (hcircuit : raw.get "circuit" = .string c) (htrim : trim c = c) :
    bundleContent (rebuilt rt raw) = bundleContent raw := by
  obtain ⟨s, hs, -⟩ := hgenerated
  have htrimmed : trimmed (raw.get "circuit") = raw.get "circuit" := by
    rw [hcircuit, trimmed, htrim]
  have hdefault : orDefault (raw.get "generatedAt") (.string rt.now) = raw.get "generatedAt" := by
    rw [hs]
    rfl
  have hcontent : bundleContent (rebuilt rt raw) = rebuilt rt raw := rfl
  rw [hcontent, rebuilt, bundleOf, optionsOf, htrimmed, hdefault, bundleContent]

/-- A file that the command judges otherwise than the library: the timestamp is missing and the
    digest is that of the bundle with the current time, or the name of the circuit has whitespace
    around it and the digest is that of one of the two bundles, the file's and the one with the
    trimmed name. -/
def Misjudged (raw : JsValue) (d : String) : Prop :=
  (raw.get "generatedAt" = .undefined ∨ raw.get "generatedAt" = .null) ∧
      d = bundleDigest rt h (rebuilt rt raw) ∨
    IsText (raw.get "generatedAt") ∧ (∃ c, raw.get "circuit" = .string c ∧ trim c ≠ c) ∧
      ¬ (d = bundleDigest rt h raw ↔ d = bundleDigest rt h (rebuilt rt raw))

/-- The two verdicts differ on the files that are misjudged. -/
theorem verdicts_agree_iff (hdigest : raw.get "digest" = .string d)
    (hcreate : createBundle rt (optionsOf raw) = .ok (rebuilt rt raw)) :
    ((verifyBundleIntegrity rt h ((rebuilt rt raw).set "digest" (.string d))).valid = true ↔
      (verifyBundleIntegrity rt h raw).valid = true) ↔ ¬ Misjudged rt h raw d := by
  obtain ⟨-, ⟨c, hcircuit, -⟩, -, -⟩ := (createBundle_eq_ok_iff rt).1 hcreate
  -- trimming the circuit's name is all that rebuilding changes in a file with a date
  have htrim : IsText (raw.get "generatedAt") → trim c = c →
      bundleDigest rt h (rebuilt rt raw) = bundleDigest rt h raw := by
    intro hgenerated htrim
    rw [bundleDigest, bundleContent_rebuilt rt hgenerated hcircuit htrim, bundleDigest]
  rw [valid_rebuilt_iff rt h hcreate, valid_raw_iff rt h hdigest hcreate, Misjudged]
  constructor
  · rintro hagree (⟨hmissing, hd⟩ | ⟨htext, -, hdiffer⟩)
    · -- rebuilding fills in a missing date, where the raw file has no valid verdict
      obtain ⟨⟨s, hs, -⟩, -⟩ := hagree.1 ⟨or_assoc.1 (Or.inl hmissing), hd⟩
      simp [hs] at hmissing
    · exact hdiffer ⟨fun hd => (hagree.2 ⟨htext, hd⟩).2,
        fun hd => (hagree.1 ⟨Or.inr (Or.inr htext), hd⟩).2⟩
  · intro hjudged
    have hsame : IsText (raw.get "generatedAt") →
        (d = bundleDigest rt h raw ↔ d = bundleDigest rt h (rebuilt rt raw)) := by
      intro htext
      by_contra hdiffer
      refine hjudged (Or.inr ⟨htext, ⟨c, hcircuit, fun hplain => hdiffer ?_⟩, hdiffer⟩)
      rw [htrim htext hplain]
    constructor
    · rintro ⟨hundefined | hnull | htext, hd⟩
      · exact absurd (Or.inl ⟨Or.inl hundefined, hd⟩) hjudged
      · exact absurd (Or.inl ⟨Or.inr hnull, hd⟩) hjudged
      · exact ⟨htext, (hsame htext).2 hd⟩
    · rintro ⟨htext, hd⟩
      exact ⟨Or.inr (Or.inr htext), (hsame htext).1 hd⟩

/-- The timestamp of the file is in order, and its digest is right. -/
def Signed (raw : JsValue) (d : String) : Prop :=
  IsText (raw.get "generatedAt") ∧ d = bundleDigest rt h raw

/-- The line stands behind a line break in the path or in a field that is printed as it is. -/
def Injected (bundlePath : String) (raw : JsValue) (line : String) : Prop :=
  ∃ text ∈ [bundlePath, valueText rt (raw.get "circuit"), valueText rt (raw.get "generatedAt"),
    valueText rt (raw.get "networkPassphrase")], line ∈ (linesOf text).tail

instance (line : String) : Decidable (Injected rt bundlePath raw line) :=
  inferInstanceAs (Decidable (∃ text ∈ _, _))

/-- A good line is printed if the verdict is good or the line is injected. -/
theorem mem_linesOf_report_iff (hdigest : raw.get "digest" = .string d) (hd : d ≠ "")
    (hprinted : commandDecodeBundle rt h bundlePath raw = .ok lines) {line : String}
    (hline : line ∈ goodLines) :
    line ∈ linesOf ("\n".intercalate lines) ↔
      Injected rt bundlePath raw line ∨ (commandIntegrity rt h raw d).valid = true := by
  obtain ⟨hcreate, signals, hsignals, rfl⟩ := commandDecodeBundle_eq_ok rt h hdigest hd hprinted
  obtain ⟨⟨signals', hsignals', hwell⟩, -⟩ := (createBundle_eq_ok_iff rt).1 hcreate
  obtain rfl : signals = signals' := JsValue.array.inj (hsignals.symm.trans hsignals')
  have hnumerals : ∀ s, JsValue.string s ∈ signals → '\n' ∉ s.toList := by
    intro s hs
    obtain ⟨s', heq, hnumeral, -⟩ := hwell.signal _ hs
    cases heq
    exact break_notMem_of_isDecimalOrHex hnumeral
  rw [linesOf_intercalate (by simp [reportLines, headerLines]), reportLines, List.flatMap_append,
    List.mem_append, mem_headerLines_iff hline _ _ _ _ (by decide) hnumerals,
    mem_closingLines_iff hline _ _ fun reason => notMem_linesOf_reason rt h hline hcreate]
  rfl

/-- **The verdict that is printed.** Take a file with a digest, and any path, for which the command
    prints a report. Both good lines are in it if and only if the library's verdict is good, exactly
    if: for a file whose timestamp and digest are in order, it is not misjudged or both lines are
    injected; for any other file, it is not misjudged and neither line is. -/
theorem decode_bundle_agrees_iff (hdigest : raw.get "digest" = .string d) (hd : d ≠ "")
    (hprinted : commandDecodeBundle rt h bundlePath raw = .ok lines) :
    (("digest valid:      yes" ∈ linesOf ("\n".intercalate lines) ↔
        (verifyBundleIntegrity rt h raw).valid = true) ∧
      ("calldata encoding: ok" ∈ linesOf ("\n".intercalate lines) ↔
        (verifyBundleIntegrity rt h raw).valid = true)) ↔
    (Signed rt h raw d → Misjudged rt h raw d →
        ∀ line ∈ goodLines, Injected rt bundlePath raw line) ∧
      (¬ Signed rt h raw d → ¬ Misjudged rt h raw d ∧
        ∀ line ∈ goodLines, ¬ Injected rt bundlePath raw line) := by
  obtain ⟨hcreate, -⟩ := commandDecodeBundle_eq_ok rt h hdigest hd hprinted
  have hgood : ∀ {p : String → Prop}, (∀ line ∈ goodLines, p line) ↔
      p "digest valid:      yes" ∧ p "calldata encoding: ok" := by simp [goodLines]
  have hreport := hgood.1 fun (line : String) (hline : line ∈ goodLines) =>
    mem_linesOf_report_iff rt h hdigest hd hprinted hline
  have hagree : ((commandIntegrity rt h raw d).valid = true ↔ Signed rt h raw d) ↔
      ¬ Misjudged rt h raw d := by
    rw [← verdicts_agree_iff rt h hdigest hcreate, valid_raw_iff rt h hdigest hcreate]
    rfl
  rw [hreport.1, hreport.2, valid_raw_iff rt h hdigest hcreate, hgood, hgood]
  change ((_ ↔ Signed rt h raw d) ∧ (_ ↔ Signed rt h raw d)) ↔ _
  by_cases hsigned : Signed rt h raw d
  · simp only [hsigned, iff_true, true_imp_iff, not_true, false_imp_iff, and_true] at hagree ⊢
    rw [hagree]
    tauto
  · simp only [hsigned, iff_false, false_imp_iff, not_false_iff, true_imp_iff, true_and] at hagree ⊢
    rw [← hagree]
    tauto

end

/-- The all-zero proof in a bundle, signed. -/
def signedFile (circuit : String) : JsValue :=
  signBundle (Runtime.reading .null) Host.scalar (.object (sampleBundle zeroProof circuit))

/-- The digest in it. -/
def fileDigest (circuit : String) : String :=
  bundleDigest (Runtime.reading .null) Host.scalar (.object (sampleBundle zeroProof circuit))

theorem createBundle_signedFile {circuit : String} (hcircuit : trim circuit ≠ "") :
    createBundle (Runtime.reading .null) (optionsOf (signedFile circuit))
      = .ok (rebuilt (Runtime.reading .null) (signedFile circuit)) :=
  (createBundle_eq_ok_iff _).2
    ⟨zeroProof_encodes, ⟨_, rfl, hcircuit⟩, ⟨_, rfl, by decide +kernel⟩, rfl⟩

theorem fileDigest_ne_empty (circuit : String) : fileDigest circuit ≠ "" :=
  bundleDigest_ne_empty _ _ _

theorem exists_report_signedFile {circuit : String} (hcircuit : trim circuit ≠ "") :
    ∃ lines, commandDecodeBundle (Runtime.reading .null) Host.scalar "proof.json"
      (signedFile circuit) = .ok lines :=
  exists_report _ _ (get_signBundle_digest _ _) (fileDigest_ne_empty circuit)
    (createBundle_signedFile hcircuit) rfl

theorem signed_signedFile (circuit : String) :
    Signed (Runtime.reading .null) Host.scalar (signedFile circuit) (fileDigest circuit) :=
  ⟨⟨_, rfl, by decide +kernel⟩, (bundleDigest_set_digest _ _ _ _).symm⟩

/-- The report on a file as the SDK writes it has the good lines if the file is valid. -/
theorem decode_bundle_agrees_signed :
    ∃ lines, commandDecodeBundle (Runtime.reading .null) Host.scalar "proof.json"
        (signedFile "preimage") = .ok lines ∧
      ("digest valid:      yes" ∈ linesOf ("\n".intercalate lines) ↔
        (verifyBundleIntegrity (Runtime.reading .null) Host.scalar
          (signedFile "preimage")).valid = true) ∧
      ("calldata encoding: ok" ∈ linesOf ("\n".intercalate lines) ↔
        (verifyBundleIntegrity (Runtime.reading .null) Host.scalar
          (signedFile "preimage")).valid = true) := by
  obtain ⟨lines, hprinted⟩ := exists_report_signedFile
    (show trim "preimage" ≠ "" by decide +kernel)
  have hjudged : ¬ Misjudged (Runtime.reading .null) Host.scalar (signedFile "preimage")
      (fileDigest "preimage") := by
    rintro (⟨hmissing | hmissing, -⟩ | ⟨-, ⟨c, hcircuit, htrim⟩, -⟩)
    · cases hmissing
    · cases hmissing
    · cases hcircuit
      exact htrim (by decide +kernel)
  exact ⟨lines, hprinted, (decode_bundle_agrees_iff _ _ (get_signBundle_digest _ _)
    (fileDigest_ne_empty "preimage") hprinted).2 ⟨fun _ hmis => absurd hmis hjudged,
      fun hunsigned => absurd (signed_signedFile "preimage") hunsigned⟩⟩

/-- The name of a circuit that prints both lines, whatever the verdict. -/
example : ∀ line ∈ goodLines, Injected (Runtime.reading .null) "proof.json"
    (signedFile "preimage\ndigest valid:      yes\ncalldata encoding: ok") line := by
  decide +kernel

/-- A signed bundle that is valid, and that the command says is not: there is a space in front of
    the name of its circuit. -/
theorem padded_circuit_misjudged :
    ∃ lines, commandDecodeBundle (Runtime.reading .null) Host.scalar "proof.json"
        (signedFile " preimage") = .ok lines ∧
      (verifyBundleIntegrity (Runtime.reading .null) Host.scalar
        (signedFile " preimage")).valid = true ∧
      "digest valid:      yes" ∉ linesOf ("\n".intercalate lines) ∧
      "calldata encoding: ok" ∉ linesOf ("\n".intercalate lines) := by
  have hcircuit : trim " preimage" ≠ "" := by decide +kernel
  have hdiffer : fileDigest " preimage" ≠ bundleDigest (Runtime.reading .null) Host.scalar
      (rebuilt (Runtime.reading .null) (signedFile " preimage")) := by decide +kernel
  have hplain : ∀ line ∈ goodLines,
      ¬ Injected (Runtime.reading .null) "proof.json" (signedFile " preimage") line := by
    decide +kernel
  obtain ⟨lines, hprinted⟩ := exists_report_signedFile hcircuit
  have hcreate := createBundle_signedFile hcircuit
  have hbad : ∀ line ∈ goodLines, line ∉ linesOf ("\n".intercalate lines) := by
    intro line hline hmem
    rcases (mem_linesOf_report_iff _ _ (get_signBundle_digest _ _)
      (fileDigest_ne_empty " preimage") hprinted hline).1 hmem with hinjected | hvalid
    · exact hplain line hline hinjected
    · exact hdiffer ((valid_rebuilt_iff _ _ hcreate).1 hvalid).2
  exact ⟨lines, hprinted, (valid_raw_iff _ _ (get_signBundle_digest _ _) hcreate).2
    (signed_signedFile " preimage"), hbad _ (by simp [goodLines]), hbad _ (by simp [goodLines])⟩

end ZkStellar.Sdk

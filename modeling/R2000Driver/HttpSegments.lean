import R2000Driver.HttpGet

/-!
# Responses cut into segments

What `httpGet` makes of a response that holds a version and a status code
before its first line end, in whatever way the socket cuts it. The first read
stops behind a line end, so the version and the number are never read from the
end of the buffer; the second one stops behind an empty line, so the loop over
the headers stops in the same place for every cut; and the loops over the body
drop nothing but line feeds, wherever a segment ends.
-/

namespace R2000Driver.Http
open TextStream

def lineEnd : List Char := ['\r', '\n']

def headersEnd : List Char := ['\r', '\n', '\r', '\n']

theorem readUntil_of_not_infix {delimiter buffer : List Char} {segments : List Segment}
    (h : ¬ delimiter <:+: buffer ++ chars segments) : readUntil delimiter segments buffer = none := by
  cases hread : readUntil delimiter segments buffer with
  | none => rfl
  | some found =>
    obtain ⟨hchars, hin⟩ := readUntil_some hread
    rw [← hchars] at h
    exact absurd (hin.trans (List.prefix_append _ _).isInfix) h

theorem prefix_of_lineEnd {line rest received left : List Char} (hline : ¬ lineEnd <:+: line)
    (h : received ++ left = line ++ lineEnd ++ rest) (hin : lineEnd <:+: received) :
    ∃ more, received = line ++ lineEnd ++ more ∧ more ++ left = rest := by
  rcases List.append_eq_append_iff.mp h with ⟨cut, hcut, hleft⟩ | ⟨more, hmore, hrest⟩
  · rcases List.eq_nil_or_concat cut with rfl | ⟨cut, last, rfl⟩
    · refine ⟨[], ?_, ?_⟩
      · rw [hcut, List.append_nil, List.append_nil]
      · rw [hleft]
        rfl
    · -- without its last character the line and its end hold no line end
      have hsplit : (received ++ cut) ++ [last] = (line ++ ['\r']) ++ ['\n'] := by
        rw [List.append_assoc, ← List.concat_eq_append, ← hcut, lineEnd, List.append_assoc]
        rfl
      have hbefore : received ++ cut = line ++ ['\r'] := (List.append_inj' hsplit rfl).1
      obtain ⟨s, t, hst⟩ := hin.trans (List.prefix_append received cut).isInfix
      rw [hbefore] at hst
      rcases List.eq_nil_or_concat t with rfl | ⟨t, c, rfl⟩
      · have hlast : (s ++ ['\r']) ++ ['\n'] = line ++ ['\r'] := by
          rw [← hst, List.append_nil, lineEnd, List.append_assoc]
          rfl
        cases (List.append_inj' hlast rfl).2
      · have hinside : s ++ lineEnd ++ t = line := by
          rw [List.concat_eq_append, ← List.append_assoc] at hst
          exact (List.append_inj' hst rfl).1
        exact absurd ⟨s, t, hinside⟩ hline
  · exact ⟨more, hmore, hrest.symm⟩

structure StatusLine where
  indent : List Char
  version : List Char
  gap : List Char
  sign : Sign
  digits : List Char
  reason : List Char
  indent_space : ∀ c ∈ indent, isSpace c = true
  isHttp : version.take 5 = "HTTP/".toList
  version_word : ∀ c ∈ version, isSpace c = false
  gap_ne : gap ≠ []
  gap_space : ∀ c ∈ gap, isSpace c = true
  digits_ne : digits ≠ []
  digits_digit : ∀ c ∈ digits, c.isDigit = true
  reason_start : ∀ c, reason.head? = some c → c.isDigit = false
  first : ¬ lineEnd <:+: indent ++ version ++ gap ++ sign.text ++ digits ++ reason

namespace StatusLine

def line (l : StatusLine) : List Char :=
  l.indent ++ l.version ++ l.gap ++ l.sign.text ++ l.digits ++ l.reason

def text (l : StatusLine) (rest : List Char) : List Char := l.line ++ lineEnd ++ rest

def status (l : StatusLine) : ℤ := l.sign.apply (digitsValue l.digits)

end StatusLine

def behindLine (text : List Char) : List Char := (text.dropWhile fun c => c != '\n').tail

theorem behindLine_of_line {line : List Char} (h : '\n' ∉ line) (rest : List Char) :
    behindLine (line ++ '\n' :: rest) = rest := by
  have hline : ∀ c ∈ line, (c != '\n') = true := by
    intro c hc
    rw [bne_iff_ne]
    rintro rfl
    exact h hc
  rw [behindLine, List.dropWhile_append_of_pos hline]
  simp

theorem behindLine_append {text : List Char} (h : '\n' ∈ text) (more : List Char) :
    behindLine (text ++ more) = behindLine text ++ more := by
  obtain ⟨line, rest, rfl, hline⟩ := List.eq_append_cons_of_mem h
  rw [List.append_assoc, List.cons_append, behindLine_of_line hline, behindLine_of_line hline]

theorem getLine_of_mem {buffer : List Char} (h : '\n' ∈ buffer) :
    ∃ line, (ofBuffer buffer).getLine = (line, ofBuffer (behindLine buffer)) := by
  obtain ⟨line, rest, rfl, hline⟩ := List.eq_append_cons_of_mem h
  rw [getLine_of_line hline, behindLine_of_line hline]
  exact ⟨some line, rfl⟩

section
variable {Tree : Type} [PropertyTree Tree]

/-- The answer to a response of which `rest` follows the first line end: the status must fit its
type, and behind the line of the status there must be an empty line before the body. -/
def StatusLine.answer (l : StatusLine) (rest : List Char) : Except String (DeviceAnswer Tree) :=
  if FitsInt l.status then
    let remaining := behindLine (l.reason ++ lineEnd ++ rest)
    match if headersEnd <:+: remaining then behindEmptyLine true remaining else none with
    | none => .ok (.ofResult .failed)
    | some body => answerOf l.status (spaced (body.filter fun c => c != '\n'))
  else .ok (.ofResult .invalidDeviceResponse)

theorem StatusLine.version_ne (l : StatusLine) : l.version ≠ [] := by
  intro h
  have := l.isHttp
  rw [h] at this
  cases this

theorem StatusLine.behind_digits (l : StatusLine) (more : List Char) :
    ∃ c tail, l.reason ++ lineEnd ++ more = c :: tail ∧ c.isDigit = false := by
  cases hreason : l.reason with
  | nil => exact ⟨'\r', '\n' :: more, rfl, by decide⟩
  | cons c reason =>
    exact ⟨c, reason ++ lineEnd ++ more, rfl, l.reason_start c (by rw [hreason]; rfl)⟩

theorem StatusLine.readWord_eq (l : StatusLine) (more : List Char) :
    (ofBuffer (l.line ++ lineEnd ++ more)).readWord = (l.version,
      ofBuffer (l.gap ++ (l.sign.text ++ (l.digits ++ (l.reason ++ lineEnd ++ more))))) := by
  obtain ⟨c, gap, hgap⟩ := List.exists_cons_of_ne_nil l.gap_ne
  have hc : isSpace c = true := l.gap_space c (by rw [hgap]; exact List.mem_cons_self)
  have hsplit : l.line ++ lineEnd ++ more = l.indent ++ (l.version ++
      c :: (gap ++ (l.sign.text ++ (l.digits ++ (l.reason ++ lineEnd ++ more))))) := by
    simp [StatusLine.line, hgap]
  rw [hsplit, readWord_spaces l.indent_space, readWord_ofBuffer l.version_ne l.version_word hc, hgap]
  rfl

theorem StatusLine.readInt_eq (l : StatusLine) (more : List Char) :
    if FitsInt l.status then
      (ofBuffer (l.gap ++ (l.sign.text ++ (l.digits ++ (l.reason ++ lineEnd ++ more))))).readInt =
        (l.status, ofBuffer (l.reason ++ lineEnd ++ more))
    else
      (ofBuffer (l.gap ++ (l.sign.text ++ (l.digits ++ (l.reason ++ lineEnd ++ more))))).readInt.2 =
        ⟨l.reason ++ lineEnd ++ more, false, true⟩ := by
  obtain ⟨c, tail, htail, hc⟩ := l.behind_digits more
  rw [readInt_spaces l.gap_space, htail]
  exact readInt_signed l.sign l.digits_ne l.digits_digit hc tail

theorem content_of_headersEnd {buffer : List Char} {segments : List Segment}
    (h : headersEnd <:+: buffer ++ chars segments) :
    ∃ body received left, behindEmptyLine true (buffer ++ chars segments) = some body ∧
      readUntil headersEnd segments buffer = some (received, left) ∧
      receiveContent left (readContent (readHeader (ofBuffer received) []).2 []).2
        (readContent (readHeader (ofBuffer received) []).2 []).1 = body.filter fun c => c != '\n' := by
  obtain ⟨received, left, hreceived⟩ := readUntil_of_infix h
  obtain ⟨hchars, hin⟩ := readUntil_some hreceived
  obtain ⟨begun, hbegun⟩ := behindEmptyLine_of_infix (show headersEnd <:+: received from hin)
  have hbody := behindEmptyLine_append hbegun (chars left)
  rw [hchars] at hbody
  refine ⟨begun ++ chars left, received, left, hbody, hreceived, ?_⟩
  rw [readHeader_ofBuffer hbegun, readContent_ofBuffer, receiveContent_eq _ _ _ rfl, List.nil_append,
    ← List.filter_append]

theorem httpGet_of_statusLine (l : StatusLine) {rest : List Char} {socket : Socket}
    {requestPath : List Char} {segments : List Segment}
    (hsocket : socket (requestText requestPath) = some ⟨segments, .eof⟩)
    (htext : chars segments = l.text rest) :
    (httpGet socket requestPath : Except String (DeviceAnswer Tree)) = l.answer rest := by
  have hinfix : lineEnd <:+: [] ++ chars segments := by
    rw [List.nil_append, htext]
    exact ⟨l.line, rest, rfl⟩
  obtain ⟨received, left, hreceived⟩ := readUntil_of_infix hinfix
  obtain ⟨hchars, hin⟩ := readUntil_some hreceived
  rw [List.nil_append, htext] at hchars
  obtain ⟨more, rfl, hmore⟩ := prefix_of_lineEnd l.first hchars hin
  have hread : readUntil ['\r', '\n'] segments [] = some (l.line ++ lineEnd ++ more, left) := hreceived
  have hword := l.readWord_eq more
  have hint := l.readInt_eq more
  have hversion : l.version.take 5 = "HTTP/".toList := l.isHttp
  unfold StatusLine.answer
  by_cases hfits : FitsInt l.status
  · rw [if_pos hfits] at hint ⊢
    have hmem : '\n' ∈ l.reason ++ lineEnd ++ more := by simp [lineEnd]
    obtain ⟨line, hline⟩ := getLine_of_mem hmem
    have hremaining : behindLine (l.reason ++ lineEnd ++ more) ++ chars left =
        behindLine (l.reason ++ lineEnd ++ rest) := by
      rw [← behindLine_append hmem, List.append_assoc, hmore]
    have hfail : (ofBuffer (behindLine (l.reason ++ lineEnd ++ more))).failbit = false := rfl
    have hbuffer : (ofBuffer (behindLine (l.reason ++ lineEnd ++ more))).buffer =
      behindLine (l.reason ++ lineEnd ++ more) := rfl
    simp only [httpGet, hsocket, hread, hword, hint, hline, hfail, hbuffer, hversion]
    by_cases hend : headersEnd <:+: behindLine (l.reason ++ lineEnd ++ rest)
    · rw [if_pos hend]
      rw [← hremaining] at hend ⊢
      obtain ⟨body, received', left', hbody, hread', hcontent⟩ := content_of_headersEnd hend
      have hread'' : readUntil ['\r', '\n', '\r', '\n'] left
        (behindLine (l.reason ++ lineEnd ++ more)) = some (received', left') := hread'
      have hstream : TextStream.mk received' (ofBuffer (behindLine (l.reason ++ lineEnd ++ more))).eofbit
        false = ofBuffer received' := rfl
      rw [hbody]
      simp only [hread'', hstream, hcontent]
      simp
    · rw [if_neg hend]
      rw [← hremaining] at hend
      have hread' : readUntil ['\r', '\n', '\r', '\n'] left
        (behindLine (l.reason ++ lineEnd ++ more)) = none := readUntil_of_not_infix hend
      simp only [hread']
      simp
  · rw [if_neg hfits] at hint ⊢
    have hget : TextStream.getLine ⟨l.reason ++ lineEnd ++ more, false, true⟩ =
        (none, ⟨l.reason ++ lineEnd ++ more, false, true⟩) := getLine_of_not_good rfl
    simp only [httpGet, hsocket, hread, hword, hint, hget, Bool.true_or, ↓reduceIte]

end
end R2000Driver.Http

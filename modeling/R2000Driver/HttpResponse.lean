import R2000Driver.HttpSegments

/-!
# Complete responses of the device

An `HttpResponse` is a status line, at least one header line, and a body. Its
text reaches `httpGet` in segments of any sizes; the answer only depends on
the status and the body (`httpGet_response`). An answer is successful when the
status is 200, whatever error the body reports.
-/

namespace R2000Driver.Http
open TextStream

structure HttpResponse where
  version : List Char
  digits : List Char
  reason : List Char
  headers : List (List Char)
  body : List Char
  isHttp : version.take 5 = "HTTP/".toList
  version_word : ∀ c ∈ version, isSpace c = false
  digits_ne : digits ≠ []
  digits_digit : ∀ c ∈ digits, c.isDigit = true
  reason_start : ∀ c, reason.head? = some c → c.isDigit = false
  reason_line : '\n' ∉ reason
  headers_ne : headers ≠ []
  headers_line : ∀ line ∈ headers, line ≠ [] ∧ '\n' ∉ line

namespace HttpResponse

def status (r : HttpResponse) : ℕ := digitsValue r.digits

def headerText (headers : List (List Char)) : List Char :=
  headers.flatMap fun line => line ++ ['\r', '\n']

def text (r : HttpResponse) : List Char :=
  (r.version ++ ' ' :: r.digits ++ r.reason ++ ['\r', '\n']) ++
    (headerText r.headers ++ ['\r', '\n'] ++ r.body)

def jsonText (r : HttpResponse) : List Char := spaced (r.body.filter fun c => c != '\n')

theorem behindEmptyLine_headers {headers : List (List Char)}
    (h : ∀ line ∈ headers, line ≠ [] ∧ '\n' ∉ line) (body : List Char) :
    behindEmptyLine true (headerText headers ++ ['\r', '\n'] ++ body) = some body := by
  induction headers with
  | nil => rfl
  | cons line headers ih =>
    obtain ⟨hne, hline⟩ := h line List.mem_cons_self
    have hend : '\n' ∉ line ++ ['\r'] := by simp [hline]
    have hnotEmpty : line ++ ['\r'] ≠ ['\r'] := by
      intro heq
      exact hne (List.append_left_eq_self.mp heq)
    have hsplit : headerText (line :: headers) ++ ['\r', '\n'] ++ body =
        (line ++ ['\r']) ++ '\n' :: (headerText headers ++ ['\r', '\n'] ++ body) := by
      simp [headerText]
    rw [hsplit, behindEmptyLine_line hend hnotEmpty]
    exact ih fun l hl => h l (List.mem_cons_of_mem line hl)

theorem infix_headers {headers : List (List Char)} (h : headers ≠ []) (body : List Char) :
    ['\r', '\n', '\r', '\n'] <:+: headerText headers ++ ['\r', '\n'] ++ body := by
  obtain ⟨lines, line, rfl⟩ := (List.eq_nil_or_concat headers).resolve_left h
  exact ⟨headerText lines ++ line, body, by simp [headerText]⟩

end HttpResponse

theorem HttpResponse.no_end (r : HttpResponse) :
    '\n' ∉ r.version ++ ' ' :: r.digits ++ r.reason := by
  have hversion : '\n' ∉ r.version := by
    intro h
    have := r.version_word '\n' h
    cases this
  have hdigits : '\n' ∉ r.digits := by
    intro h
    have := r.digits_digit '\n' h
    cases this
  simp [hversion, hdigits, r.reason_line]

def HttpResponse.statusLine (r : HttpResponse) : StatusLine where
  indent := []
  version := r.version
  gap := [' ']
  sign := .absent
  digits := r.digits
  reason := r.reason
  indent_space := nofun
  isHttp := r.isHttp
  version_word := r.version_word
  gap_ne := nofun
  gap_space := by simp [isSpace]
  digits_ne := r.digits_ne
  digits_digit := r.digits_digit
  reason_start := r.reason_start
  first := by
    intro h
    have hmem := h.subset (show '\n' ∈ lineEnd by decide)
    have hend := r.no_end
    simp [Sign.text] at hmem hend
    tauto

section
variable {Tree : Type} [PropertyTree Tree]

theorem HttpResponse.text_eq (r : HttpResponse) :
    r.text = r.statusLine.text (headerText r.headers ++ ['\r', '\n'] ++ r.body) := by
  simp [text, statusLine, StatusLine.text, StatusLine.line, lineEnd, Sign.text]

theorem httpGet_response (r : HttpResponse) {socket : Socket} {requestPath : List Char}
    {segments : List Segment} (hsocket : socket (requestText requestPath) = some ⟨segments, .eof⟩)
    (htext : chars segments = r.text) :
    (httpGet socket requestPath : Except String (DeviceAnswer Tree)) =
      if r.status ≤ 2147483647 then answerOf r.status r.jsonText
      else .ok (.ofResult .invalidDeviceResponse) := by
  rw [httpGet_of_statusLine r.statusLine hsocket (htext.trans r.text_eq), StatusLine.answer]
  have hfits : FitsInt r.statusLine.status ↔ r.status ≤ 2147483647 := by
    change -2147483648 ≤ (r.status : ℤ) ∧ (r.status : ℤ) ≤ 2147483647 ↔ _
    omega
  by_cases hstatus : r.status ≤ 2147483647
  · rw [if_pos (hfits.mpr hstatus), if_pos hstatus]
    have hreason : '\n' ∉ r.reason ++ ['\r'] := by simp [r.reason_line]
    have hsplit : r.reason ++ lineEnd ++ (HttpResponse.headerText r.headers ++ ['\r', '\n'] ++ r.body) =
        (r.reason ++ ['\r']) ++ '\n' :: (HttpResponse.headerText r.headers ++ ['\r', '\n'] ++ r.body) := by
      simp [lineEnd]
    have hremaining : behindLine (r.statusLine.reason ++ lineEnd ++
        (HttpResponse.headerText r.headers ++ ['\r', '\n'] ++ r.body)) =
          HttpResponse.headerText r.headers ++ ['\r', '\n'] ++ r.body := by
      change behindLine (r.reason ++ lineEnd ++ _) = _
      rw [hsplit, behindLine_of_line hreason]
    have hinfix : headersEnd <:+: HttpResponse.headerText r.headers ++ ['\r', '\n'] ++ r.body :=
      HttpResponse.infix_headers r.headers_ne r.body
    simp only [hremaining, if_pos hinfix, HttpResponse.behindEmptyLine_headers r.headers_line]
    rfl
  · rw [if_neg (mt hfits.mp hstatus), if_neg hstatus]

theorem requestResultFromCode_success_iff {status : ℕ} (h : status ≤ 2147483647) :
    requestResultFromCode (UInt32.ofInt status) = .success ↔ status = 200 := by
  have hvalue : (UInt32.ofInt status).toNat = status := by
    have hnat : ((status : ℤ) % 2 ^ 32).toNat = status := by omega
    rw [UInt32.ofInt, hnat, UInt32.toNat_ofNat_of_lt' (by simp only [UInt32.size]; omega)]
  have hcode : UInt32.ofInt status = RequestResult.success.code ↔ status = 200 := by
    rw [← UInt32.toNat_inj, hvalue]
    rfl
  rw [← hcode, requestResultFromCode]
  split_ifs with h200
  · exact iff_of_true rfl h200
  all_goals exact iff_of_false (by decide) h200

theorem answerOf_success_iff {status : ℕ} (h : status ≤ 2147483647) {content : List Char} {tree : Tree}
    (hjson : PropertyTree.readJson content = .ok tree) :
    ∃ answer : DeviceAnswer Tree, answerOf status content = .ok answer ∧
      (answer.requestResult = .success ↔ status = 200) := by
  have hiff := requestResultFromCode_success_iff h
  unfold answerOf
  by_cases hcode : requestResultFromCode (UInt32.ofInt status) = .success
  · have hstatus := hiff.mp hcode
    rw [hcode, if_neg (fun hne => hne rfl), hjson]
    cases hverify : verifyErrorCode tree with
    | false => exact ⟨.ofResult .success, by simp only [hverify]; rfl, iff_of_true rfl hstatus⟩
    | true => exact ⟨⟨.success, tree⟩, by simp only [hverify]; rfl, iff_of_true rfl hstatus⟩
  · rw [if_pos hcode]
    refine ⟨_, rfl, ?_⟩
    simp only [DeviceAnswer.ofResult, hiff]

theorem httpGet_answers (r : HttpResponse) {socket : Socket} {requestPath : List Char}
    {segments : List Segment} (hsocket : socket (requestText requestPath) = some ⟨segments, .eof⟩)
    (htext : chars segments = r.text) {tree : Tree}
    (hjson : PropertyTree.readJson r.jsonText = .ok tree) :
    ∃ answer : DeviceAnswer Tree, httpGet socket requestPath = .ok answer ∧
      (answer.requestResult = .success ↔ r.status = 200) := by
  rw [httpGet_response r hsocket htext]
  by_cases hstatus : r.status ≤ 2147483647
  · rw [if_pos hstatus]
    exact answerOf_success_iff hstatus hjson
  · rw [if_neg hstatus]
    refine ⟨_, rfl, iff_of_false (by simp [DeviceAnswer.ofResult]) ?_⟩
    omega

/-- Success is reported for the accepted commands only, exactly on the
responses that are not of status 200 with an error of the device. -/
theorem httpGet_success_iff (r : HttpResponse) {socket : Socket} {requestPath : List Char}
    {segments : List Segment} (hsocket : socket (requestText requestPath) = some ⟨segments, .eof⟩)
    (htext : chars segments = r.text) {tree : Tree}
    (hjson : PropertyTree.readJson r.jsonText = .ok tree) :
    ∃ answer : DeviceAnswer Tree, httpGet socket requestPath = .ok answer ∧
      ((answer.requestResult = .success ↔ r.status = 200 ∧ verifyErrorCode tree = true) ↔
        ¬ (r.status = 200 ∧ verifyErrorCode tree = false)) := by
  obtain ⟨answer, hanswer, hsuccess⟩ := httpGet_answers r hsocket htext hjson
  refine ⟨answer, hanswer, ?_⟩
  rw [hsuccess]
  cases verifyErrorCode tree <;> simp

end

structure CodeAndText where
  code : Option ℤ
  text : Option String

def deviceErrorBody : List Char :=
  "\x7b\"error_code\":120,\"error_text\":\"invalid parameter\"\x7d".toList

instance : PropertyTree CodeAndText where
  empty := ⟨none, none⟩
  readJson text :=
    if text = deviceErrorBody then .ok ⟨some 120, some "invalid parameter"⟩
    else .error "expected value"
  getOptionalInt tree key := if key = errorCode then tree.code else none
  getOptionalString tree key := if key = errorText then tree.text else none

def deviceErrorResponse : HttpResponse where
  version := "HTTP/1.0".toList
  digits := "200".toList
  reason := " OK".toList
  headers := ["Content-Type: text/plain".toList]
  body := deviceErrorBody
  isHttp := by decide
  version_word := by simp [TextStream.isSpace]
  digits_ne := by decide
  digits_digit := by simp
  reason_start := by simp
  reason_line := by decide
  headers_ne := by decide
  headers_line := by decide

def deviceErrorSegments : List Segment :=
  [⟨'H', "TTP/1.0 200 OK\r".toList⟩, ⟨'\n', deviceErrorResponse.text.drop 17⟩]

def deviceErrorSocket : Socket := fun _ => some ⟨deviceErrorSegments, .eof⟩

theorem deviceErrorSegments_text : chars deviceErrorSegments = deviceErrorResponse.text := by
  decide

theorem deviceErrorBody_read : PropertyTree.readJson deviceErrorResponse.jsonText =
    Except.ok (CodeAndText.mk (some 120) (some "invalid parameter")) := by
  have hbody : deviceErrorResponse.jsonText = deviceErrorBody := by decide
  rw [hbody]
  exact if_pos rfl

theorem httpGet_success_iff_deviceError :
    ∃ answer : DeviceAnswer CodeAndText,
      httpGet deviceErrorSocket "/cmd/set_parameter?x=1".toList = .ok answer ∧
      ((answer.requestResult = .success ↔ deviceErrorResponse.status = 200 ∧
          verifyErrorCode (CodeAndText.mk (some 120) (some "invalid parameter")) = true) ↔
        ¬ (deviceErrorResponse.status = 200 ∧
          verifyErrorCode (CodeAndText.mk (some 120) (some "invalid parameter")) = false)) :=
  httpGet_success_iff deviceErrorResponse rfl deviceErrorSegments_text deviceErrorBody_read

theorem httpGet_refused_reported_success :
    ¬ ∀ (Tree : Type) (_ : PropertyTree Tree) (r : HttpResponse) (socket : Socket)
      (requestPath : List Char) (segments : List Segment) (tree : Tree),
      socket (requestText requestPath) = some ⟨segments, .eof⟩ → chars segments = r.text →
      PropertyTree.readJson r.jsonText = .ok tree →
      ∃ answer : DeviceAnswer Tree, httpGet socket requestPath = .ok answer ∧
        (answer.requestResult = .success ↔ r.status = 200 ∧ verifyErrorCode tree = true) := by
  intro hall
  obtain ⟨answer, hanswer, hsuccess⟩ := hall CodeAndText inferInstance deviceErrorResponse
    deviceErrorSocket [] deviceErrorSegments _ rfl deviceErrorSegments_text deviceErrorBody_read
  obtain ⟨answer', hanswer', hsuccess'⟩ := httpGet_answers deviceErrorResponse
    (show deviceErrorSocket (requestText []) = _ from rfl) deviceErrorSegments_text
    deviceErrorBody_read
  obtain rfl : answer = answer' := Except.ok.inj (hanswer.symm.trans hanswer')
  have hverify := (hsuccess.mp (hsuccess'.mpr rfl)).2
  revert hverify
  decide

/-- Every cut of a response has the same answer, and the parser is given the same text. -/
theorem httpGet_independent_of_segments {Tree : Type} [PropertyTree Tree] (l : StatusLine)
    (rest : List Char) {socket socket' : Socket} {requestPath requestPath' : List Char}
    {segments segments' : List Segment}
    (hsocket : socket (requestText requestPath) = some ⟨segments, .eof⟩)
    (hsocket' : socket' (requestText requestPath') = some ⟨segments', .eof⟩)
    (htext : chars segments = l.text rest) (htext' : chars segments' = l.text rest) :
    (httpGet socket requestPath : Except String (DeviceAnswer Tree)) = l.answer rest ∧
      (httpGet socket' requestPath' : Except String (DeviceAnswer Tree)) = l.answer rest :=
  ⟨httpGet_of_statusLine l hsocket htext, httpGet_of_statusLine l hsocket' htext'⟩

def deviceErrorRest : List Char :=
  HttpResponse.headerText deviceErrorResponse.headers ++ ['\r', '\n'] ++ deviceErrorResponse.body

theorem httpGet_independent_of_segments_deviceError :
    (httpGet deviceErrorSocket [] : Except String (DeviceAnswer CodeAndText)) =
        deviceErrorResponse.statusLine.answer deviceErrorRest ∧
      (httpGet (fun _ => some ⟨[⟨'H', deviceErrorResponse.text.drop 1⟩], .eof⟩) [] :
          Except String (DeviceAnswer CodeAndText)) =
        deviceErrorResponse.statusLine.answer deviceErrorRest :=
  httpGet_independent_of_segments deviceErrorResponse.statusLine deviceErrorRest
    (show deviceErrorSocket (requestText []) = _ from rfl) rfl (by decide) (by decide)

end R2000Driver.Http

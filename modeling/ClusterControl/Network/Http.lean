import ClusterControl.Network.Url

/-!
# Answers over HTTP

What a server answers to a request, and the wording of its status codes.
-/

namespace ClusterControl.Network

structure Response where
  code : Nat
  body : String
  deriving DecidableEq, Repr

/-- Fetches an address; `none` when no server can be reached there. -/
abbrev Fetch (m : Type → Type) := Url → m (Option Response)

/-! ## Messages -/

/-- Host and port of an address in plain text, without user and brackets. -/
def Url.endpoint? (u : Url) : Option (String × Nat) := do
  let authority ← u.authority
  if u.scheme != "http" then none
  else
    let (host, port) := splitPort ((splitAtChar '@' authority.toList).getLastD [])
    let bare := host.filter fun c => c != '[' && c != ']'
    return (String.ofList bare, (port.bind (numeral? 10)).getD 80)

/-- The request for an address, in a form that is answered without chunks. -/
def Url.requestText (u : Url) : String :=
  let path := match u.path with
    | .unsplit p => p
    | .segments parts => String.join (parts.map fun p => "/" ++ p)
  let host := (splitAtChar '@' (u.authority.getD "").toList).getLastD []
  "GET " ++ (if path.isEmpty then "/" else path) ++ " HTTP/1.0\r\nHost: " ++ String.ofList host
    ++ "\r\nAccept: */*\r\n\r\n"

/-- Splits a message at the empty line behind its head. -/
def splitHead : List Char → Option (List Char × List Char)
  | '\r' :: '\n' :: '\r' :: '\n' :: rest => some ([], rest)
  | c :: rest => (splitHead rest).map fun s => (c :: s.1, s.2)
  | [] => none

/-- The code and the body of a whole message. -/
def Response.parse? (message : String) : Option Response := do
  let (head, body) ← splitHead message.toList
  match splitAtChar ' ' (head.takeWhile (· != '\r')) with
  | version :: code :: _ =>
    if "HTTP/1.".toList.isPrefixOf version then
      return ⟨← numeral? 10 code, String.ofList body⟩
    else none
  | _ => none

/-! ## Status codes -/

/-- The registered phrases of status codes. -/
def phrases : List (Nat × String) := [
  (100, "Continue"), (101, "Switching Protocols"), (102, "Processing"), (200, "OK"),
  (201, "Created"), (202, "Accepted"), (203, "Non Authoritative Information"), (204, "No Content"),
  (205, "Reset Content"), (206, "Partial Content"), (207, "Multi-Status"),
  (208, "Already Reported"), (226, "IM Used"), (300, "Multiple Choices"),
  (301, "Moved Permanently"), (302, "Found"), (303, "See Other"), (304, "Not Modified"),
  (305, "Use Proxy"), (307, "Temporary Redirect"), (308, "Permanent Redirect"),
  (400, "Bad Request"), (401, "Unauthorized"), (402, "Payment Required"), (403, "Forbidden"),
  (404, "Not Found"), (405, "Method Not Allowed"), (406, "Not Acceptable"),
  (407, "Proxy Authentication Required"), (408, "Request Timeout"), (409, "Conflict"),
  (410, "Gone"), (411, "Length Required"), (412, "Precondition Failed"),
  (413, "Payload Too Large"), (414, "URI Too Long"), (415, "Unsupported Media Type"),
  (416, "Range Not Satisfiable"), (417, "Expectation Failed"), (418, "I'm a teapot"),
  (421, "Misdirected Request"), (422, "Unprocessable Entity"), (423, "Locked"),
  (424, "Failed Dependency"), (426, "Upgrade Required"), (428, "Precondition Required"),
  (429, "Too Many Requests"), (431, "Request Header Fields Too Large"),
  (451, "Unavailable For Legal Reasons"), (500, "Internal Server Error"),
  (501, "Not Implemented"), (502, "Bad Gateway"), (503, "Service Unavailable"),
  (504, "Gateway Timeout"), (505, "HTTP Version Not Supported"), (506, "Variant Also Negotiates"),
  (507, "Insufficient Storage"), (508, "Loop Detected"), (510, "Not Extended"),
  (511, "Network Authentication Required")]

/-- A status code with its phrase. -/
def statusLine (code : Nat) : String :=
  toString code ++ " " ++
    (((phrases.find? (·.1 == code)).map (·.2)).getD "<unknown status code>")

end ClusterControl.Network

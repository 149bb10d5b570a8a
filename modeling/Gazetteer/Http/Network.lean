import Gazetteer.Http.Url

/-!
# Requests and answers

A `Network ν` says which texts are addresses, and answers requests, changing a state in `ν`; a
request may stay without an answer.
-/

namespace Gazetteer.Http

/-- A request for what is at an address. -/
structure Request where
  url : Url
  userAgent : String
deriving DecidableEq, Repr

structure Answer where
  status : Nat
  body : String
deriving DecidableEq, Repr

structure Network (ν : Type) where
  /-- The address that a text is read as, if it is one that can be asked. -/
  address? : String → Option Url
  send : Request → StateM ν (Option Answer)

/-- Nothing answers, at no address whatever. -/
def Network.unreachable (ν : Type) : Network ν :=
  ⟨fun text => some ⟨text, none⟩, fun _ => return none⟩

/-! ## Status codes -/

def Answer.isSuccess (a : Answer) : Bool := 200 ≤ a.status && a.status < 300

/-- The names of status codes. -/
def statusNames : List (Nat × String) := [
  (100, "Continue"), (101, "Switching Protocols"), (102, "Processing"),
  (200, "OK"), (201, "Created"), (202, "Accepted"), (203, "Non Authoritative Information"),
  (204, "No Content"), (205, "Reset Content"), (206, "Partial Content"), (207, "Multi-Status"),
  (208, "Already Reported"), (226, "IM Used"),
  (300, "Multiple Choices"), (301, "Moved Permanently"), (302, "Found"), (303, "See Other"),
  (304, "Not Modified"), (305, "Use Proxy"), (307, "Temporary Redirect"),
  (308, "Permanent Redirect"),
  (400, "Bad Request"), (401, "Unauthorized"), (402, "Payment Required"), (403, "Forbidden"),
  (404, "Not Found"), (405, "Method Not Allowed"), (406, "Not Acceptable"),
  (407, "Proxy Authentication Required"), (408, "Request Timeout"), (409, "Conflict"),
  (410, "Gone"), (411, "Length Required"), (412, "Precondition Failed"),
  (413, "Payload Too Large"), (414, "URI Too Long"), (415, "Unsupported Media Type"),
  (416, "Range Not Satisfiable"), (417, "Expectation Failed"), (418, "I'm a teapot"),
  (421, "Misdirected Request"), (422, "Unprocessable Entity"), (423, "Locked"),
  (424, "Failed Dependency"), (425, "Too Early"), (426, "Upgrade Required"),
  (428, "Precondition Required"), (429, "Too Many Requests"),
  (431, "Request Header Fields Too Large"), (451, "Unavailable For Legal Reasons"),
  (500, "Internal Server Error"), (501, "Not Implemented"), (502, "Bad Gateway"),
  (503, "Service Unavailable"), (504, "Gateway Timeout"), (505, "HTTP Version Not Supported"),
  (506, "Variant Also Negotiates"), (507, "Insufficient Storage"), (508, "Loop Detected"),
  (510, "Not Extended"), (511, "Network Authentication Required")]

/-- A status code with its name. -/
def Answer.statusText (a : Answer) : String :=
  toString a.status ++ " " ++ (statusNames.lookup a.status).getD "<unknown status code>"

end Gazetteer.Http

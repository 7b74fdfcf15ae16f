/-
`http::server::reply` with every status that it can have, and the stock
replies.  What a connection sends, of a reply or of a response, is a status
line, headers and a content.
-/
import BohunoPyzord.HttpApi
import BohunoPyzord.HttpResponse

namespace BohunoPyzord

/-- The lines of `status_strings`. -/
def StatusCode.statusString : StatusCode → String
  | .ok => "HTTP/1.0 200 OK\r\n"
  | .created => "HTTP/1.0 201 Created\r\n"
  | .accepted => "HTTP/1.0 202 Accepted\r\n"
  | .noContent => "HTTP/1.0 204 No Content\r\n"
  | .multipleChoices => "HTTP/1.0 300 Multiple Choices\r\n"
  | .movedPermanently => "HTTP/1.0 301 Moved Permanently\r\n"
  | .movedTemporarily => "HTTP/1.0 302 Moved Temporarily\r\n"
  | .notModified => "HTTP/1.0 304 Not Modified\r\n"
  | .badRequest => "HTTP/1.0 400 Bad Request\r\n"
  | .unauthorized => "HTTP/1.0 401 Unauthorized\r\n"
  | .forbidden => "HTTP/1.0 403 Forbidden\r\n"
  | .notFound => "HTTP/1.0 404 Not Found\r\n"
  | .internalServerError => "HTTP/1.0 500 Internal Server Error\r\n"
  | .notImplemented => "HTTP/1.0 501 Not Implemented\r\n"
  | .badGateway => "HTTP/1.0 502 Bad Gateway\r\n"
  | .serviceUnavailable => "HTTP/1.0 503 Service Unavailable\r\n"

namespace HttpServer

/-- `http::server::reply`; its status is a `status_type`, which has the
enumerators of `response::status_code`. -/
structure Reply where
  status : StatusCode
  headers : List Header
  content : Text
deriving DecidableEq

namespace Reply

/-- `reply::set_header`, on the headers. -/
def assignHeader (name value : Text) : List Header → List Header
  | [] => [⟨name, value⟩]
  | header :: headers =>
      if header.name = name then { header with value } :: headers
      else header :: assignHeader name value headers

def setHeader (rep : Reply) (name value : Text) : Reply :=
  { rep with headers := assignHeader name value rep.headers }

/-- `reply::to_buffers`. -/
def toBuffers (rep : Reply) : List Text :=
  [rep.status.statusString.toList] ++ rep.headers.flatMap (fun header =>
    [header.name, Response.nameValueSeparator, header.value,
      Response.crlf]) ++ [Response.crlf] ++ [rep.content]

/-- What the pages of `stock_replies` have in common. -/
def page (title heading : String) : String :=
  "<html>" ++ ("<head><title>" ++ title ++ "</title></head>") ++
    ("<body><h1>" ++ heading ++ "</h1></body>") ++ "</html>"

/-- `stock_replies::to_string`. -/
def stockContent : StatusCode → String
  | .ok => ""
  | .created => page "Created" "201 Created"
  | .accepted => page "Accepted" "202 Accepted"
  | .noContent => page "No Content" "204 Content"
  | .multipleChoices => page "Multiple Choices" "300 Multiple Choices"
  | .movedPermanently => page "Moved Permanently" "301 Moved Permanently"
  | .movedTemporarily => page "Moved Temporarily" "302 Moved Temporarily"
  | .notModified => page "Not Modified" "304 Not Modified"
  | .badRequest => page "Bad Request" "400 Bad Request"
  | .unauthorized => page "Unauthorized" "401 Unauthorized"
  | .forbidden => page "Forbidden" "403 Forbidden"
  | .notFound => page "Not Found" "404 Not Found"
  | .internalServerError =>
      page "Internal Server Error" "500 Internal Server Error"
  | .notImplemented => page "Not Implemented" "501 Not Implemented"
  | .badGateway => page "Bad Gateway" "502 Bad Gateway"
  | .serviceUnavailable => page "Service Unavailable" "503 Service Unavailable"

/-- `reply::stock_reply`. -/
def stockReply (status : StatusCode) : Reply :=
  let content := (stockContent status).toList
  { status, content
    headers := [⟨"Content-Length".toList, decimal content.length⟩,
      ⟨"Content-Type".toList, "text/html".toList⟩] }

end Reply

end HttpServer

/-- The statuses that the interface to the database sets. -/
def ReplyStatus.statusCode : ReplyStatus → StatusCode
  | .ok => .ok
  | .internalServerError => .internalServerError

/-- The replies of the interface to the database among all of them. -/
def HttpReply.toReply (rep : HttpReply) : HttpServer.Reply :=
  { status := rep.status.statusCode, headers := rep.headers
    content := rep.content }

theorem HttpReply.toReply_stockReply :
    HttpReply.stockReply.toReply =
      HttpServer.Reply.stockReply .internalServerError := by
  have hpage : "<html><head><title>Internal Server Error</title></head>" ++
      "<body><h1>500 Internal Server Error</h1></body></html>" =
        HttpServer.Reply.stockContent .internalServerError := by
    decide +kernel
  rw [HttpReply.stockReply, hpage]
  rfl

end BohunoPyzord

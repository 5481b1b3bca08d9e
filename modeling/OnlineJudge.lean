import OnlineJudge.Auth.Base64Url
import OnlineJudge.Db.PoolCounter
import OnlineJudge.Handler.Accounts
import OnlineJudge.Handler.HandedIn
import OnlineJudge.Handler.ProblemPages
import OnlineJudge.Handler.Put
import OnlineJudge.Handler.SubmissionHandler
import OnlineJudge.Handler.TestCaseFiles
import OnlineJudge.Handler.Upload
import OnlineJudge.Judge.CutReply
import OnlineJudge.Judge.Queue
import OnlineJudge.Judge.Retry
import OnlineJudge.Judge.SandboxRunner
import OnlineJudge.Judge.SubmissionLife
import OnlineJudge.Judge.Wire
import OnlineJudge.Muduo.HalfClose
import OnlineJudge.Muduo.InactiveRelease
import OnlineJudge.Muduo.Poller
import OnlineJudge.Muduo.TcpServer
import OnlineJudge.Net.Buffer
import OnlineJudge.Net.EmptyPath
import OnlineJudge.Net.HeaderSpelling
import OnlineJudge.Net.KeepAlive
import OnlineJudge.Net.MultipartEncoding
import OnlineJudge.Net.MultipartRounds
import OnlineJudge.Net.ParserSafety
import OnlineJudge.Net.Split
import OnlineJudge.Net.UrlCoding
import OnlineJudge.Server.HtmlEscape
import OnlineJudge.Server.Listen
import OnlineJudge.Server.PathIds
import OnlineJudge.Tools.RegisterAdmin
import OnlineJudge.Utils.Config
import OnlineJudge.Utils.LogKeeping
import OnlineJudge.Utils.LogSize
import OnlineJudge.Web.ResultPage
import OnlineJudge.Web.Session

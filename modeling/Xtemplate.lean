import Xtemplate.Go.Strings
import Xtemplate.Go.Errors
import Xtemplate.Basic
import Xtemplate.FrontMatter
import Xtemplate.Go.Http
import Xtemplate.Spec.EventStream
import Xtemplate.DotFlush
import Xtemplate.Go.Float64
import Xtemplate.Go.Strconv
import Xtemplate.Encoding
import Xtemplate.Dot
import Xtemplate.Handlers
import Xtemplate.Go.Path
import Xtemplate.Go.Map
import Xtemplate.Build
import Xtemplate.Instance
import Xtemplate.Server
import Xtemplate.StaticFile
import Xtemplate.DotFS
import Xtemplate.Go.Reflect
import Xtemplate.Funcs
import Xtemplate.DotDB
import Xtemplate.BuildLedger
import Xtemplate.Go.Header
import Xtemplate.Go.ResponseWriter
import Xtemplate.DotResp
import Xtemplate.FlushingHandler
import Xtemplate.Transactions
import Xtemplate.Requests

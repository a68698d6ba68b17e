import Rxe.CqNotify
import Rxe.Create
import Rxe.Credit
import Rxe.Drain
import Rxe.FailReport
import Rxe.Icrc
import Rxe.Inbound
import Rxe.KeyFresh
import Rxe.McastRace
import Rxe.Mtu
import Rxe.Overlong
import Rxe.ReadReplay
import Rxe.RecvReport
import Rxe.ReqRead
import Rxe.RespAtomic
import Rxe.RespHalt
import Rxe.RespRevoke
import Rxe.RnrBackoff
import Rxe.SendSlot
import Rxe.SrqModify
import Rxe.Task
import Rxe.UnknownOp
import Rxe.Wakeup
import Rxe.WriteLength

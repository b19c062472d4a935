import Camerasp.Camera.Frame
import Camerasp.Camera.Device
import Camerasp.Camera.Ownership
import Camerasp.Timer.Failure
import Camerasp.Camera.Accounting
import Camerasp.Camera.Commit
import Camerasp.Http.Framing
import Camerasp.Camera.Bounds
import Camerasp.Camera.Recycle
import Camerasp.Camera.Retry
import Camerasp.Jpeg.Destination
import Camerasp.Timer.Spacing
import Camerasp.Timer.Pending
import Camerasp.Timer.Publication
import Camerasp.Timer.Saves
import Camerasp.Camera.Ranges
import Camerasp.Jpeg.Repeat
import Camerasp.Jpeg.Layout
import Camerasp.Http.ImageNumber
import Camerasp.Options.Command
import Camerasp.Http.Picture
import Camerasp.Http.Refusal
import Camerasp.Http.Serving
import Camerasp.Options.Configuration
import Camerasp.Camera.Queue

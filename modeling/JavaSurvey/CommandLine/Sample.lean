import JavaSurvey.Document

/-!
# Built-in sample

The file that a command works on when it is given none.
-/

namespace JavaSurvey

/-- The text of the sample. -/
def sampleText : String :=
  "\npackage com.android.server.demo;\n\nimport android.content.Context;\n\n" ++
  "public class DemoManagerService extends SystemService \x7b\n" ++
  "    private static final String TAG = \"DemoManagerService\";\n" ++
  "    private final Object mLock = new Object();\n" ++
  "    int mState, mPending;\n\n" ++
  "    public DemoManagerService(Context context) \x7b\n" ++
  "        super(context);\n    \x7d\n\n" ++
  "    @Override\n    public void onStart() \x7b\n" ++
  "        publishBinderService(\"demo\", new BinderService());\n" ++
  "        refresh(0);\n    \x7d\n\n" ++
  "    @Override\n    public void onBootPhase(int phase) \x7b\n" ++
  "        synchronized (mLock) \x7b\n" ++
  "            mHandler.post(() -> refresh(phase));\n        \x7d\n    \x7d\n\n" ++
  "    private void refresh(int reason) \x7b\n" ++
  "        mState = reason;\n    \x7d\n\n" ++
  "    final class BinderService extends IDemoManager.Stub \x7b\n    \x7d\n\x7d\n"

/-- The sample as a document. -/
def sampleDocument : Document where
  uri := "sample://DemoManagerService.java"
  text := sampleText.toList
  fileName := "DemoManagerService.java"

end JavaSurvey
